/-
# `EchoThread` — the echo thread and its driver (`App/app.c`, `App/uart.c`)

`rs485_handle` waits in `KING_EventGet`, and a pass of it reads once and writes one entry
back (`Rs485`).  Bytes arrive at any time: they go into the receive buffer of the driver, and
`RS485EventCb` sets the flag that the thread waits for.  Getting the event clears the flag, so
one pass may stand for any number of arrivals.  What is written is what `rs485_event_handle`
writes: the text that `LOG_P` puts on the same line where `KING_EventGet` times out is left out.

Nothing is lost on the way from the driver to the echo (`Keeps`).  But a pass takes
`RS485_RX_MAX` bytes at most, and what it leaves behind is noticed only when the next byte
arrives:

    every read with the flag clear finds ≤ RS485_RX_MAX bytes
      ⟹  nothing is left in the driver while the thread waits     (`echo_drained`)
    such a read finds more
      ⟹  if nothing arrives, the thread waits with the rest there (`overfull_strands`)
-/
import IntercomSalve.Lib.Run
import IntercomSalve.Rs485

namespace IntercomSalve.Rs485

/-! ## The machine -/

/-- Where `rs485_handle` stands. -/
inductive Place where
  /-- in `KING_EventGet` -/
  | eventGet
  /-- about to call `rs_485_data_resive` -/
  | dataResive
  /-- about to call `rs485_input_detection` -/
  | inputDetection
  deriving DecidableEq

/-- The thread, the driver and the event between them. -/
structure Port where
  cb : UcbCb
  /-- the receive buffer of the driver -/
  driver : List UInt8
  /-- `rs485EH` -/
  event : Bool
  place : Place

/-- The thread waits for the first time. -/
def Port.init : Port := ⟨start, [], false, .eventGet⟩

/-- `UART_EVT_DATA_TO_READ`. -/
def uartEvtDataToRead : Nat := 0

/-- `RS485EventCb (eventID, pData, len)`. -/
def eventCb (eventID : Nat) (p : Port) : Port :=
  if eventID ≠ uartEvtDataToRead then p else { p with event := true }

/-- Bytes arrive, and the driver says so. -/
def arrive (bs : List UInt8) (p : Port) : Port :=
  eventCb uartEvtDataToRead { p with driver := p.driver ++ bs }

/-- `KING_EventGet (rs485EH, 1, 4000)`: the flag is taken, or the time is up and the thread
waits again; of that `LOG_P` tells on the line, which is left out. -/
def eventGet (p : Port) : Port :=
  if p.event then { p with event := false, place := .dataResive } else p

/-- What `KING_UartRead` stores: what is there, `RS485_RX_MAX` bytes at most. -/
def takeRead (driver : List UInt8) : UartRead := ⟨driver.take rxMax, List.length_take_le _ _⟩

/-- `rs_485_data_resive ()`, with the driver. -/
def resive (p : Port) : Port :=
  { p with
    cb := dataResive (takeRead p.driver) p.cb
    driver := p.driver.drop rxMax
    place := .inputDetection }

/-- `rs485_input_detection ()`, and back to the head of the loop. -/
def detect (p : Port) : Port := { p with cb := inputDetection p.cb, place := .eventGet }

/-- One step: bytes arrive, the driver reports something else, or the thread goes on. -/
inductive PortAct where
  | arrive (bs : List UInt8)
  | eventCb (eventID : Nat)
  | eventGet
  | dataResive
  | inputDetection
  deriving DecidableEq

/-- The machine. -/
def execPort : PortAct → Port → Option Port
  | .arrive bs, p => if bs = [] then none else some (arrive bs p)
  | .eventCb eventID, p => if eventID = uartEvtDataToRead then none else some (eventCb eventID p)
  | .eventGet, p => if p.place = .eventGet then some (eventGet p) else none
  | .dataResive, p => if p.place = .dataResive then some (resive p) else none
  | .inputDetection, p => if p.place = .inputDetection then some (detect p) else none

/-- The bytes that arrive in a step. -/
def arrivesIn (e : Run.Step PortAct Port) : List UInt8 :=
  match e.act with
  | .arrive bs => bs
  | _ => []

/-- The bytes that have arrived in a run. -/
def arrived (l : List (Run.Step PortAct Port)) : List UInt8 := (l.map arrivesIn).flatten

theorem arrived_snoc (l : List (Run.Step PortAct Port)) (e : Run.Step PortAct Port) :
    arrived (l ++ [e]) = arrived l ++ arrivesIn e := by
  simp [arrived]

/-! ## Nothing is lost on the way -/

/-- The arrived bytes are those written back, those that a read has brought into the buffer
and those in the driver. -/
inductive Keeps (bs : List UInt8) (p : Port) : Prop
  | between : p.place ≠ .inputDetection → InStep p.cb → bs = p.cb.written ++ p.driver →
      Keeps bs p
  | within {s : UcbCb} {r : UartRead} : p.place = .inputDetection → InStep s →
      Received r s p.cb → bs = s.written ++ r.bytes ++ p.driver → Keeps bs p

theorem Keeps.arrive {bs : List UInt8} {p : Port} (h : Keeps bs p) (more : List UInt8) :
    Keeps (bs ++ more) (Rs485.arrive more p) := by
  cases h with
  | between hplace hin hbs =>
      refine .between hplace hin ?_
      show bs ++ more = p.cb.written ++ (p.driver ++ more)
      rw [hbs, List.append_assoc]
  | within hplace hin hr hbs =>
      refine .within hplace hin hr ?_
      show bs ++ more = _ ++ (p.driver ++ more)
      rw [hbs, List.append_assoc]

theorem Keeps.eventGet {bs : List UInt8} {p : Port} (h : Keeps bs p)
    (hplace : p.place = .eventGet) : Keeps bs (Rs485.eventGet p) := by
  cases h with
  | within hplace' => exact absurd (hplace.symm.trans hplace') (by decide)
  | between hplace' hin hbs =>
      unfold Rs485.eventGet
      split
      · exact .between (by simp) hin hbs
      · exact .between hplace' hin hbs

theorem Keeps.resive {bs : List UInt8} {p : Port} (h : Keeps bs p)
    (hplace : p.place = .dataResive) : Keeps bs (Rs485.resive p) := by
  cases h with
  | within hplace' => exact absurd (hplace.symm.trans hplace') (by decide)
  | between _ hin hbs =>
      refine .within rfl hin (hin.received (takeRead p.driver)) ?_
      show bs = p.cb.written ++ p.driver.take rxMax ++ p.driver.drop rxMax
      rw [hbs, List.append_assoc, List.take_append_drop]

theorem Keeps.detect {bs : List UInt8} {p : Port} (h : Keeps bs p)
    (hplace : p.place = .inputDetection) : Keeps bs (Rs485.detect p) := by
  cases h with
  | between hplace' => exact absurd hplace hplace'
  | within _ hin hr hbs =>
      obtain ⟨hin', hwritten, -⟩ := hr.inputDetection hin
      refine .between (by simp [Rs485.detect]) hin' ?_
      show bs = (inputDetection p.cb).written ++ p.driver
      rw [hwritten, hbs]

theorem Keeps.step {bs : List UInt8} {p q : Port} {a : PortAct} (h : Keeps bs p)
    (he : execPort a p = some q) : Keeps (bs ++ arrivesIn ⟨p, a, q⟩) q := by
  cases a with
  | arrive more =>
      obtain ⟨-, heq⟩ := Option.ite_none_left_eq_some.mp he
      obtain rfl := Option.some.inj heq
      exact h.arrive more
  | eventCb eventID =>
      obtain ⟨hid, heq⟩ := Option.ite_none_left_eq_some.mp he
      obtain rfl := Option.some.inj heq
      have hsame : Rs485.eventCb eventID p = p := if_pos hid
      rw [hsame, show arrivesIn ⟨p, .eventCb eventID, p⟩ = [] from rfl, List.append_nil]
      exact h
  | eventGet =>
      obtain ⟨hplace, heq⟩ := Option.ite_none_right_eq_some.mp he
      obtain rfl := Option.some.inj heq
      rw [show arrivesIn ⟨p, .eventGet, Rs485.eventGet p⟩ = [] from rfl, List.append_nil]
      exact h.eventGet hplace
  | dataResive =>
      obtain ⟨hplace, heq⟩ := Option.ite_none_right_eq_some.mp he
      obtain rfl := Option.some.inj heq
      rw [show arrivesIn ⟨p, .dataResive, Rs485.resive p⟩ = [] from rfl, List.append_nil]
      exact h.resive hplace
  | inputDetection =>
      obtain ⟨hplace, heq⟩ := Option.ite_none_right_eq_some.mp he
      obtain rfl := Option.some.inj heq
      rw [show arrivesIn ⟨p, .inputDetection, Rs485.detect p⟩ = [] from rfl, List.append_nil]
      exact h.detect hplace

/-- **Every arrived byte is in one of three places**, in the order of arrival. -/
theorem keeps_arrived {l : List (Run.Step PortAct Port)} {p : Port}
    (hr : Run.Runs execPort Port.init l p) : Keeps (arrived l) p := by
  induction hr with
  | nil => exact .between (by decide) start_inStep rfl
  | snoc _ he ih =>
      rw [arrived_snoc]
      exact ih.step he

/-! ## What a read leaves behind -/

/-- Nothing is in the driver without the flag, but between the event and the read. -/
def Noticed (p : Port) : Prop := p.place ≠ .dataResive → p.event = false → p.driver = []

/-- A read with the flag clear finds no more than it can take. -/
def FitsOneRead (e : Run.Step PortAct Port) : Prop :=
  e.act = .dataResive → e.pre.event = false → e.pre.driver.length ≤ rxMax

instance (e : Run.Step PortAct Port) : Decidable (FitsOneRead e) := by
  unfold FitsOneRead
  infer_instance

theorem Noticed.step {p q : Port} {a : PortAct} (h : Noticed p) (he : execPort a p = some q)
    (hfit : FitsOneRead ⟨p, a, q⟩) : Noticed q := by
  cases a with
  | arrive more =>
      obtain ⟨-, heq⟩ := Option.ite_none_left_eq_some.mp he
      obtain rfl := Option.some.inj heq
      intro _ hclear
      exact absurd hclear (by simp [Rs485.arrive, Rs485.eventCb])
  | eventCb eventID =>
      obtain ⟨hid, heq⟩ := Option.ite_none_left_eq_some.mp he
      obtain rfl := Option.some.inj heq
      have hsame : Rs485.eventCb eventID p = p := if_pos hid
      rw [hsame]
      exact h
  | eventGet =>
      obtain ⟨hplace, heq⟩ := Option.ite_none_right_eq_some.mp he
      obtain rfl := Option.some.inj heq
      unfold Rs485.eventGet
      split
      · intro hread
        exact absurd rfl hread
      · exact h
  | dataResive =>
      obtain ⟨hplace, heq⟩ := Option.ite_none_right_eq_some.mp he
      obtain rfl := Option.some.inj heq
      intro _ hclear
      exact List.drop_eq_nil_of_le (hfit rfl hclear)
  | inputDetection =>
      obtain ⟨hplace, heq⟩ := Option.ite_none_right_eq_some.mp he
      obtain rfl := Option.some.inj heq
      intro _ hclear
      exact h (by simp [hplace]) hclear

/-- **No byte is stranded.**  In every run in which each read with the flag clear finds at
most `RS485_RX_MAX` bytes: while the thread waits with the flag clear, the driver's buffer is
empty, and the bytes written back are all that have arrived. -/
theorem echo_drained {l : List (Run.Step PortAct Port)} {p : Port}
    (hr : Run.Runs execPort Port.init l p) (hfit : ∀ e ∈ l, FitsOneRead e)
    (hplace : p.place = .eventGet) (hclear : p.event = false) :
    p.driver = [] ∧ p.cb.written = arrived l := by
  have hnoticed : Noticed p :=
    (hr.invariant (I := Noticed) (fun _ _ => rfl) (fun _ _ _ h he hf => h.step he hf) hfit).1
  have hempty := hnoticed (by simp [hplace]) hclear
  refine ⟨hempty, ?_⟩
  cases keeps_arrived hr with
  | within hplace' => exact absurd (hplace.symm.trans hplace') (by decide)
  | between _ _ hbs => rw [hbs, hempty, List.append_nil]

/-- Two bytes in two arrivals and one event. -/
theorem twoArrivals_drained :
    ∃ l p, Run.Runs execPort Port.init l p ∧ p.driver = [] ∧ p.cb.written = [0x41, 0x42] := by
  have hrun : ∃ l p, Run.Runs execPort Port.init l p ∧ (decide (∀ e ∈ l, FitsOneRead e) &&
      decide (p.place = .eventGet ∧ p.event = false ∧ arrived l = [0x41, 0x42])) = true :=
    Run.Runs.of_trace_test
      (l := [.arrive [0x41], .arrive [0x42], .eventGet, .dataResive, .inputDetection])
      (q := fun l p => decide (∀ e ∈ l, FitsOneRead e) &&
        decide (p.place = .eventGet ∧ p.event = false ∧ arrived l = [0x41, 0x42]))
      (by decide +kernel)
  obtain ⟨l, p, hr, hq⟩ := hrun
  obtain ⟨hfit, hend⟩ := Bool.and_eq_true_iff.mp hq
  obtain ⟨hplace, hclear, harrived⟩ := of_decide_eq_true hend
  obtain ⟨hempty, hwritten⟩ := echo_drained hr (of_decide_eq_true hfit) hplace hclear
  exact ⟨l, p, hr, hempty, hwritten.trans harrived⟩

/-- A read that finds more leaves the rest, and if nothing arrives the thread waits with it. -/
theorem overfull_strands {p : Port} (hplace : p.place = .dataResive) (hclear : p.event = false)
    (hmore : rxMax < p.driver.length) :
    ∃ q, Run.runActs execPort [.dataResive, .inputDetection] p = some q ∧
      q.place = .eventGet ∧ q.event = false ∧ q.driver ≠ [] := by
  refine ⟨detect (resive p), ?_, rfl, hclear, ?_⟩
  · simp only [Run.runActs, execPort, if_pos hplace, Option.bind_some]
    rfl
  · intro hnil
    have hlen := congrArg List.length hnil
    simp only [detect, resive, List.length_drop, List.length_nil] at hlen
    omega

/-- One event for a burst that is longer than a read. -/
theorem longBurst_strands {bs : List UInt8} (hlong : rxMax < bs.length) :
    ∃ l q, Run.Runs execPort Port.init l q ∧ q.place = .eventGet ∧ q.event = false ∧
      q.driver ≠ [] := by
  have hne : bs ≠ [] := List.ne_nil_of_length_pos (Nat.zero_lt_of_lt hlong)
  have harrive : execPort (.arrive bs) Port.init =
      some { Port.init with driver := bs, event := true } := by
    show (if bs = [] then none else _) = _
    rw [if_neg hne]
    rfl
  have htaken : Run.Reach execPort Port.init
      { Port.init with driver := bs, place := .dataResive } :=
    ((Run.Reach.refl Port.init).snoc harrive).snoc (a := .eventGet) rfl
  obtain ⟨q, hq, hwait⟩ :=
    overfull_strands (p := { Port.init with driver := bs, place := .dataResive }) rfl rfl hlong
  obtain ⟨l, hl⟩ := htaken.runActs hq
  exact ⟨l, q, hl, hwait⟩

/-- A burst of 257 bytes leaves its last byte in the driver. -/
theorem burst_stranded :
    ¬ ∀ l p, Run.Runs execPort Port.init l p → p.place = .eventGet → p.event = false →
      p.driver = [] ∧ p.cb.written = arrived l := by
  intro h
  obtain ⟨l, q, hr, hplace, hclear, hne⟩ := longBurst_strands
    (show rxMax < (List.replicate 257 (0 : UInt8)).length by rw [List.length_replicate]; decide)
  exact hne (h l q hr hplace hclear).1

end IntercomSalve.Rs485
