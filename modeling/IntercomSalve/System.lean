/-
# `System` — the threads together

A step of the system is one callback, one timer tick, or one message taken from
the head of a queue and handled to its end — except message 122, whose loop is
cut at the label: `recv` brings the socket thread to `is_cmd` (or past the loop),
and each `isCmd` is one pass.  While the socket thread stands at the label
nothing else runs, so a message is still handled as one piece, and a loop that
does not end is a run that never leaves the label.
-/
import IntercomSalve.Threads

namespace IntercomSalve

open Goto

/-- The globals, and where the socket thread stands: between messages, or at
`is_cmd` with `ret` bytes received. -/
structure Sys where
  app : App
  atIsCmd : Option Nat

/-- The outcome of a pass, for the socket thread. -/
def Sys.ofJump (ret : Nat) : Jump App → Sys
  | .again s => ⟨s, some ret⟩
  | .leave s => ⟨s, none⟩

@[simp] theorem Sys.ofJump_app (ret : Nat) (j : Jump App) : (Sys.ofJump ret j).app = j.state := by
  cases j <;> rfl

/-- What can happen next. -/
inductive Act where
  | socket (io : Platform)
  | recv (chunk : List UInt8)
  | isCmd
  | audio (io : Platform)
  | mp3 (io : Platform)
  | timerHeartbeat (io : Platform)
  | timerHeartbeat2
  | socketEvent (e : SocketEvent)
  | uart2Event
  | uart3Event
  | audioRecordCb (buff : Mem) (len : Nat)
  | audioPlayCb

/-- One step; `none` where the action is not possible. -/
def exec (a : Act) (x : Sys) : Option Sys :=
  match x.atIsCmd with
  | some ret =>
      match a with
      | .isCmd => some (Sys.ofJump ret (isCmd ret x.app))
      | _ => none
  | none =>
      match a with
      | .isCmd => none
      | .recv chunk =>
          match x.app.socketMsgs with
          | .msg122 n :: ms =>
              if chunk.length ≤ n then
                some (Sys.ofJump chunk.length
                  (message122 n chunk { x.app with socketMsgs := ms }))
              else none
          | _ => none
      | .socket io =>
          match x.app.socketMsgs with
          | [] | .msg122 _ :: _ => none
          | m :: ms => some ⟨socketTestThread io m { x.app with socketMsgs := ms }, none⟩
      | .audio io =>
          match x.app.audioMsgs with
          | [] => none
          | m :: ms => some ⟨audioDuplexthread io m { x.app with audioMsgs := ms }, none⟩
      | .mp3 io =>
          match x.app.mp3Msgs with
          | [] => none
          | m :: ms => some ⟨audioPlayMP3Thread io m { x.app with mp3Msgs := ms }, none⟩
      | .timerHeartbeat io => some ⟨timerHeartbeat io x.app, none⟩
      | .timerHeartbeat2 =>
          if x.app.timerStart then some ⟨x.app.postAudio .time5s, none⟩ else none
      | .socketEvent e => some ⟨socketEventProcessCb e x.app, none⟩
      | .uart2Event => some ⟨x.app.postAudio .uart2Read, none⟩
      | .uart3Event => some ⟨x.app.postAudio .uart3Read, none⟩
      | .audioRecordCb buff len => some ⟨audioRecordCb buff len x.app, none⟩
      | .audioPlayCb => some ⟨(audioPlayCb x.app).2, none⟩

/-- Power-on. -/
def Sys.init : Sys := ⟨App.init, none⟩

/-- The states of some run from power-on. -/
def Reachable (x : Sys) : Prop := Run.Reach exec Sys.init x

/-- In some reachable state the socket thread takes message 122 with `DataLen`
`uDataSize`; `s` are the globals then. -/
def Receives (uDataSize : Nat) (s : App) : Prop :=
  ∃ x ms, Reachable x ∧ x.atIsCmd = none ∧ x.app.socketMsgs = .msg122 uDataSize :: ms ∧
    s = { x.app with socketMsgs := ms }

/-- A platform on which nothing answers but the network: no socket, no bytes, no file. -/
def Platform.silent : Platform where
  sysImei := fun _ => 0
  socketSend := fun _ => 0
  rsrq := 0
  rsrp := 0
  dd := 0
  netWaits := 0
  socketFd := none
  uartAvailable := 0
  uartRead := []
  audioBusy := false
  fsFileCreate := none
  fsFileRead := []

theorem Receives.of_runActs {l : List Act} {x : Sys} {n : Nat} {ms : List SocketMsg}
    (h : Run.runActs exec l Sys.init = some x) (hpc : x.atIsCmd = none)
    (hm : x.app.socketMsgs = .msg122 n :: ms) : Receives n { x.app with socketMsgs := ms } :=
  ⟨x, ms, Run.Reach.runActs (.refl _) h, hpc, hm, rfl⟩

/-- The run that a list of actions makes from power-on. -/
theorem Runs.of_acts {l : List Act} {t : List (Run.Step Act Sys)} {y : Sys}
    (h : Run.trace exec l Sys.init = some (t, y)) : Run.Runs exec Sys.init t y :=
  .of_trace h

/-- The same run, with a test of it that can be evaluated. -/
theorem Runs.of_acts_test {l : List Act} {q : List (Run.Step Act Sys) → Sys → Bool}
    (h : ((Run.trace exec l Sys.init).any fun t => q t.1 t.2) = true) :
    ∃ t y, Run.Runs exec Sys.init t y ∧ q t y = true :=
  Run.Runs.of_trace_test h

/-- The same run, with a test of its steps and one of its end. -/
theorem Runs.of_acts_all {l : List Act} {p : Run.Step Act Sys → Bool} {q : Sys → Bool}
    (h : ((Run.trace exec l Sys.init).any fun t => t.1.all p && q t.2) = true) :
    ∃ t y, Run.Runs exec Sys.init t y ∧ q y = true ∧ ∀ e ∈ t, p e = true := by
  obtain ⟨t, y, hr, hq⟩ := Runs.of_acts_test (q := fun t y => t.all p && q y) h
  rw [Bool.and_eq_true, List.all_eq_true] at hq
  exact ⟨t, y, hr, hq.2, hq.1⟩

/-! ## Steps, taken apart -/

/-- A step of the system: one pass at the label, or one handler between messages. -/
inductive Steps : Sys → Act → Sys → Prop
  | isCmd {s : App} {ret : Nat} : Steps ⟨s, some ret⟩ .isCmd (Sys.ofJump ret (isCmd ret s))
  | recv {s : App} {n : Nat} {ms : List SocketMsg} {chunk : List UInt8} :
      s.socketMsgs = .msg122 n :: ms → chunk.length ≤ n →
      Steps ⟨s, none⟩ (.recv chunk)
        (Sys.ofJump chunk.length (message122 n chunk { s with socketMsgs := ms }))
  | socket {s : App} {m : SocketMsg} {ms : List SocketMsg} {io : Platform} :
      s.socketMsgs = m :: ms → (∀ n, m ≠ .msg122 n) →
      Steps ⟨s, none⟩ (.socket io) ⟨socketTestThread io m { s with socketMsgs := ms }, none⟩
  | audio {s : App} {m : AudioMsg} {ms : List AudioMsg} {io : Platform} :
      s.audioMsgs = m :: ms →
      Steps ⟨s, none⟩ (.audio io) ⟨audioDuplexthread io m { s with audioMsgs := ms }, none⟩
  | mp3 {s : App} {m : Mp3Msg} {ms : List Mp3Msg} {io : Platform} :
      s.mp3Msgs = m :: ms →
      Steps ⟨s, none⟩ (.mp3 io) ⟨audioPlayMP3Thread io m { s with mp3Msgs := ms }, none⟩
  | timerHeartbeat {s : App} {io : Platform} :
      Steps ⟨s, none⟩ (.timerHeartbeat io) ⟨timerHeartbeat io s, none⟩
  | timerHeartbeat2 {s : App} :
      s.timerStart = true → Steps ⟨s, none⟩ .timerHeartbeat2 ⟨s.postAudio .time5s, none⟩
  | socketEvent {s : App} {e : SocketEvent} :
      Steps ⟨s, none⟩ (.socketEvent e) ⟨socketEventProcessCb e s, none⟩
  | uart2Event {s : App} : Steps ⟨s, none⟩ .uart2Event ⟨s.postAudio .uart2Read, none⟩
  | uart3Event {s : App} : Steps ⟨s, none⟩ .uart3Event ⟨s.postAudio .uart3Read, none⟩
  | audioRecordCb {s : App} {buff : Mem} {len : Nat} :
      Steps ⟨s, none⟩ (.audioRecordCb buff len) ⟨audioRecordCb buff len s, none⟩
  | audioPlayCb {s : App} : Steps ⟨s, none⟩ .audioPlayCb ⟨(audioPlayCb s).2, none⟩

/-- The executable step and the relation are the same. -/
theorem exec_eq_some {a : Act} {x y : Sys} : exec a x = some y ↔ Steps x a y := by
  constructor
  · intro h
    obtain ⟨s, pc⟩ := x
    unfold exec at h
    cases pc with
    | some ret =>
        cases a with
        | isCmd =>
            obtain rfl := Option.some.inj h
            exact .isCmd
        | _ => simp at h
    | none =>
        cases a with
        | isCmd => exact nomatch h
        | recv chunk =>
            dsimp only at h
            split at h
            · next n ms hms =>
                split at h
                · next hle =>
                    obtain rfl := Option.some.inj h
                    exact .recv hms hle
                · exact nomatch h
            · exact nomatch h
        | socket io =>
            dsimp only at h
            split at h
            · exact nomatch h
            · exact nomatch h
            · next m ms hne hms =>
                obtain rfl := Option.some.inj h
                exact .socket hms fun n hn => hne n (by rw [hn])
        | audio io =>
            dsimp only at h
            split at h
            · exact nomatch h
            · next m ms hms =>
                obtain rfl := Option.some.inj h
                exact .audio hms
        | mp3 io =>
            dsimp only at h
            split at h
            · exact nomatch h
            · next m ms hms =>
                obtain rfl := Option.some.inj h
                exact .mp3 hms
        | timerHeartbeat io => obtain rfl := Option.some.inj h; exact .timerHeartbeat
        | timerHeartbeat2 =>
            dsimp only at h
            split at h
            · next ht => obtain rfl := Option.some.inj h; exact .timerHeartbeat2 ht
            · exact nomatch h
        | socketEvent e => obtain rfl := Option.some.inj h; exact .socketEvent
        | uart2Event => obtain rfl := Option.some.inj h; exact .uart2Event
        | uart3Event => obtain rfl := Option.some.inj h; exact .uart3Event
        | audioRecordCb buff len => obtain rfl := Option.some.inj h; exact .audioRecordCb
        | audioPlayCb => obtain rfl := Option.some.inj h; exact .audioPlayCb
  · intro h
    cases h with
    | isCmd => rfl
    | recv hms hle => simp [exec, hms, hle]
    | @socket s m ms io hms hne =>
        cases m with
        | msg122 n => exact absurd rfl (hne n)
        | _ => simp [exec, hms]
    | audio hms => simp [exec, hms]
    | mp3 hms => simp [exec, hms]
    | timerHeartbeat => rfl
    | timerHeartbeat2 ht => simp [exec, ht]
    | socketEvent => rfl
    | uart2Event => rfl
    | uart3Event => rfl
    | audioRecordCb => rfl
    | audioPlayCb => rfl

/-- What every step keeps, every reachable state has. -/
theorem Reachable.invariant {I : Sys → Prop} {x : Sys} (h : Reachable x) (h0 : I Sys.init)
    (hstep : ∀ x a y, I x → Steps x a y → I y) : I x :=
  Run.Reach.invariant h h0 fun y a z hy he => hstep y a z hy (exec_eq_some.mp he)

end IntercomSalve
