/-
# `Rs485` — the echo on UART 2 (`App/uart.c`, `App/app.c`)

`rs485_handle` waits for bytes, reads them into a buffer and writes them back.  The
buffer wraps early, when a whole read no longer fits behind what is there; a second
ring holds, for each read, where its bytes start and end.  `URxDataIN` is the entry the
next read fills and `URxDataOUT` the next one to write back; the end of an entry is
inclusive, so it lies before the start when nothing was read.

Pointers into `RS485_RxBuff` are offsets, pointers into `URxDataPtr` are indices.  Two
components are not in the source, and nothing reads them: the regions offered to
`KING_UartRead`, and the bytes written by `rs485_event_handle`.  `LOG_P` writes to the same
UART, as when `KING_EventGet` times out; its texts are no part of the echo and left out.

The handler is lossless and stays in bounds whatever is read (`echo_lossless`).
-/
import IntercomSalve.Lib.Mem

namespace IntercomSalve.Rs485

/-- `RS485_RX_SIZE`. -/
def rxSize : Nat := 2048
/-- `RS485_RX_MAX`. -/
def rxMax : Nat := 256
/-- `URxNUM`. -/
def uRxNum : Nat := 100

/-- `UCB_URxBuffPtr`. -/
structure UcbURxBuffPtr where
  start : Nat
  end_ : Int

/-- `UCB_CB`, with `RS485_RxBuff`. -/
structure UcbCb where
  rxBuff : Mem
  uRxCounter : Nat
  uRxDataPtr : Nat → UcbURxBuffPtr
  uRxDataIN : Nat
  uRxDataOUT : Nat
  uRxDataEND : Nat
  /-- start and length of each region offered to `KING_UartRead` -/
  offered : List (Nat × Nat)
  /-- the bytes written by `rs485_event_handle` -/
  written : List UInt8

/-- What `KING_UartRead` stores: `RS485_RX_MAX` bytes at most. -/
structure UartRead where
  bytes : List UInt8
  length_le : bytes.length ≤ rxMax

/-- `rs485_ptr_init ()`. -/
def ptrInit (s : UcbCb) : UcbCb :=
  { s with
    uRxDataIN := 0, uRxDataOUT := 0, uRxDataEND := uRxNum - 1
    uRxDataPtr := Function.update s.uRxDataPtr 0 ⟨0, 0⟩
    uRxCounter := 0 }

/-- `KING_UartRead (UART_485, URxDataIN->start, RS485_RX_MAX, &readLen)`, and the count. -/
def uartRead (bs : UartRead) (s : UcbCb) : UcbCb :=
  let start := (s.uRxDataPtr s.uRxDataIN).start
  { s with
    offered := s.offered ++ [(start, rxMax)]
    rxBuff := s.rxBuff.memcpy start (Mem.ofList bs.bytes) bs.bytes.length
    uRxCounter := (s.uRxCounter + bs.bytes.length) % 65536 }

/-- `URxDataIN->end = &RS485_RxBuff[URxCounter - 1]`. -/
def markEnd (s : UcbCb) : UcbCb :=
  { s with
    uRxDataPtr := Function.update s.uRxDataPtr s.uRxDataIN
      { s.uRxDataPtr s.uRxDataIN with end_ := (s.uRxCounter : Int) - 1 } }

/-- The entry behind `i`; the one at `URxDataEND` is never used. -/
def nextEntry (s : UcbCb) (i : Nat) : Nat := if i + 1 = s.uRxDataEND then 0 else i + 1

/-- `URxDataIN++`. -/
def advanceIn (s : UcbCb) : UcbCb := { s with uRxDataIN := nextEntry s s.uRxDataIN }

/-- Where the next read starts: behind this one, or at the start of the buffer when less
than a whole read is left. -/
def markStart (s : UcbCb) : UcbCb :=
  if (rxSize : Int) - s.uRxCounter ≥ rxMax then
    { s with
      uRxDataPtr := Function.update s.uRxDataPtr s.uRxDataIN ⟨s.uRxCounter, s.uRxCounter⟩ }
  else
    { s with
      uRxDataPtr := Function.update s.uRxDataPtr s.uRxDataIN
        { s.uRxDataPtr s.uRxDataIN with start := 0 }
      uRxCounter := 0 }

/-- `rs_485_data_resive ()`. -/
def dataResive (bs : UartRead) (s : UcbCb) : UcbCb :=
  markStart (advanceIn (markEnd (uartRead bs s)))

/-- `rs485_event_handle (data, datalen)`. -/
def eventHandle (data datalen : Nat) (s : UcbCb) : UcbCb :=
  if datalen ≠ 0 then { s with written := s.written ++ s.rxBuff.slice data datalen } else s

/-- `URxDataOUT->end - URxDataOUT->start + 1`, as the `uint16` that is passed. -/
def datalenOf (p : UcbURxBuffPtr) : Nat := ((p.end_ - p.start + 1) % 65536).toNat

/-- `rs485_input_detection ()`. -/
def inputDetection (s : UcbCb) : UcbCb :=
  if s.uRxDataOUT ≠ s.uRxDataIN then
    let p := s.uRxDataPtr s.uRxDataOUT
    let s := eventHandle p.start (datalenOf p) s
    { s with uRxDataOUT := nextEntry s s.uRxDataOUT }
  else s

/-- One event of `rs485_handle`. -/
def handle (s : UcbCb) (bs : UartRead) : UcbCb := inputDetection (dataResive bs s)

/-- `RS485CB` when `rs485_handle` starts waiting. -/
def start : UcbCb :=
  ptrInit ⟨fun _ => 0, 0, fun _ => ⟨0, 0⟩, 0, 0, 0, [], []⟩

/-- The control block after a sequence of events. -/
def run (reads : List UartRead) : UcbCb := reads.foldl handle start

/-! ## The two rings -/

/-- Between events: the rings are in step, the next read starts behind the last one, and a
whole read fits there. -/
structure InStep (s : UcbCb) : Prop where
  same : s.uRxDataOUT = s.uRxDataIN
  entry : s.uRxDataIN ≤ uRxNum - 2
  last : s.uRxDataEND = uRxNum - 1
  counter : s.uRxCounter ≤ rxSize - rxMax
  start : (s.uRxDataPtr s.uRxDataIN).start = s.uRxCounter

theorem start_inStep : InStep start where
  same := rfl
  entry := Nat.zero_le _
  last := rfl
  counter := Nat.zero_le _
  start := rfl

theorem nextEntry_le {s : UcbCb} {i : Nat} (hi : i ≤ uRxNum - 2) (hend : s.uRxDataEND = uRxNum - 1) :
    nextEntry s i ≤ uRxNum - 2 := by
  unfold nextEntry uRxNum at *
  split <;> omega

theorem nextEntry_ne {s : UcbCb} {i : Nat} (hend : s.uRxDataEND = uRxNum - 1) :
    nextEntry s i ≠ i := by
  unfold nextEntry uRxNum at *
  split <;> omega

/-- What a read makes of the control block. -/
structure Received (bs : UartRead) (s t : UcbCb) : Prop where
  out : t.uRxDataOUT = s.uRxDataIN
  entry : t.uRxDataIN = nextEntry s s.uRxDataIN
  last : t.uRxDataEND = uRxNum - 1
  counter : t.uRxCounter ≤ rxSize - rxMax
  start : (t.uRxDataPtr t.uRxDataIN).start = t.uRxCounter
  filled : t.uRxDataPtr s.uRxDataIN = ⟨s.uRxCounter, s.uRxCounter + bs.bytes.length - 1⟩
  bytes : t.rxBuff.slice s.uRxCounter bs.bytes.length = bs.bytes
  offered : t.offered = s.offered ++ [(s.uRxCounter, rxMax)]
  written : t.written = s.written

/-- The count of a read does not wrap the `uint16`. -/
theorem InStep.counter_mod {s : UcbCb} (h : InStep s) (bs : UartRead) :
    (s.uRxCounter + bs.bytes.length) % 65536 = s.uRxCounter + bs.bytes.length := by
  have hc := h.counter
  have hbs := bs.length_le
  unfold rxSize rxMax at *
  exact Nat.mod_eq_of_lt (by omega)

/-- Before the start of the next read is marked. -/
theorem InStep.advanced {s : UcbCb} (h : InStep s) (bs : UartRead) :
    (advanceIn (markEnd (uartRead bs s))).uRxCounter = s.uRxCounter + bs.bytes.length ∧
      (advanceIn (markEnd (uartRead bs s))).uRxDataPtr s.uRxDataIN =
        ⟨s.uRxCounter, s.uRxCounter + bs.bytes.length - 1⟩ := by
  have hcount : (uartRead bs s).uRxCounter = s.uRxCounter + bs.bytes.length := h.counter_mod bs
  refine ⟨hcount, ?_⟩
  show Function.update s.uRxDataPtr s.uRxDataIN
    { s.uRxDataPtr s.uRxDataIN with end_ := ((uartRead bs s).uRxCounter : Int) - 1 }
      s.uRxDataIN = _
  rw [Function.update_self, hcount]
  dsimp only
  rw [h.start, Int.natCast_add]

theorem InStep.received {s : UcbCb} (h : InStep s) (bs : UartRead) :
    Received bs s (dataResive bs s) := by
  obtain ⟨hcount, hfilled⟩ := h.advanced bs
  have hne : s.uRxDataIN ≠ (advanceIn (markEnd (uartRead bs s))).uRxDataIN :=
    (nextEntry_ne h.last).symm
  have hbytes : (uartRead bs s).rxBuff.slice s.uRxCounter bs.bytes.length = bs.bytes := by
    show (s.rxBuff.memcpy (s.uRxDataPtr s.uRxDataIN).start (Mem.ofList bs.bytes) bs.bytes.length).slice
      s.uRxCounter bs.bytes.length = bs.bytes
    rw [h.start, Mem.slice_memcpy, Mem.slice_ofList]
  have hoffered : (uartRead bs s).offered = s.offered ++ [(s.uRxCounter, rxMax)] := by
    show s.offered ++ [((s.uRxDataPtr s.uRxDataIN).start, rxMax)] = _
    rw [h.start]
  unfold dataResive markStart
  split
  · next hroom =>
      rw [hcount] at hroom
      refine ⟨h.same, rfl, h.last, ?_, ?_, ?_, hbytes, hoffered, rfl⟩
      · show (advanceIn (markEnd (uartRead bs s))).uRxCounter ≤ rxSize - rxMax
        rw [hcount]
        unfold rxSize rxMax at *
        omega
      · dsimp only
        rw [Function.update_self]
      · exact (Function.update_of_ne hne _ _).trans hfilled
  · refine ⟨h.same, rfl, h.last, Nat.zero_le _, ?_, ?_, hbytes, hoffered, rfl⟩
    · dsimp only
      rw [Function.update_self]
    · exact (Function.update_of_ne hne _ _).trans hfilled

/-- The length of an entry is what was read, also when that is nothing. -/
theorem datalenOf_filled {c : Nat} {bs : UartRead} :
    datalenOf ⟨c, c + bs.bytes.length - 1⟩ = bs.bytes.length := by
  have hbs : bs.bytes.length ≤ 256 := bs.length_le
  unfold datalenOf
  dsimp only
  omega

/-- Writing back what was just read. -/
theorem Received.inputDetection {bs : UartRead} {s t : UcbCb} (h : Received bs s t)
    (hs : InStep s) :
    InStep (inputDetection t) ∧ (inputDetection t).written = s.written ++ bs.bytes ∧
      (inputDetection t).offered = t.offered := by
  have hne : t.uRxDataOUT ≠ t.uRxDataIN := by
    rw [h.out, h.entry]
    exact (nextEntry_ne hs.last).symm
  have hptr : t.uRxDataPtr t.uRxDataOUT = ⟨s.uRxCounter, s.uRxCounter + bs.bytes.length - 1⟩ := by
    rw [h.out, h.filled]
  have hevent : eventHandle (t.uRxDataPtr t.uRxDataOUT).start
      (datalenOf (t.uRxDataPtr t.uRxDataOUT)) t = { t with written := t.written ++ bs.bytes } := by
    rw [hptr, datalenOf_filled]
    unfold eventHandle
    split
    · show { t with written := t.written ++ t.rxBuff.slice s.uRxCounter bs.bytes.length } = _
      rw [h.bytes]
    · next hzero =>
        rw [List.eq_nil_of_length_eq_zero (not_not.mp hzero), List.append_nil]
  have hdetect : Rs485.inputDetection t =
      { t with
        written := t.written ++ bs.bytes
        uRxDataOUT := nextEntry t t.uRxDataOUT } := by
    unfold Rs485.inputDetection
    rw [if_pos hne]
    dsimp only
    rw [hevent]
    rfl
  rw [hdetect]
  refine ⟨⟨?_, ?_, h.last, h.counter, h.start⟩, congrArg (· ++ bs.bytes) h.written, rfl⟩
  · show nextEntry t t.uRxDataOUT = t.uRxDataIN
    rw [h.out, h.entry]
    unfold nextEntry
    rw [h.last, hs.last]
  · show t.uRxDataIN ≤ uRxNum - 2
    rw [h.entry]
    exact nextEntry_le hs.entry hs.last

/-- **One event.** -/
theorem InStep.handle {s : UcbCb} (h : InStep s) (bs : UartRead) :
    InStep (handle s bs) ∧ (Rs485.handle s bs).written = s.written ++ bs.bytes ∧
      (Rs485.handle s bs).offered = s.offered ++ [(s.uRxCounter, rxMax)] := by
  have hr := h.received bs
  obtain ⟨hin, hwritten, hoffered⟩ := hr.inputDetection h
  exact ⟨hin, hwritten, hoffered.trans hr.offered⟩

/-! ## Sequences of events -/

/-- A region lies inside `RS485_RxBuff`. -/
def Inside (r : Nat × Nat) : Prop := r.1 + r.2 ≤ rxSize

theorem run_snoc (reads : List UartRead) (bs : UartRead) :
    run (reads ++ [bs]) = handle (run reads) bs := by
  simp [run]

theorem run_inStep (reads : List UartRead) :
    InStep (run reads) ∧ (run reads).written = (reads.map UartRead.bytes).flatten ∧
      ∀ r ∈ (run reads).offered, Inside r := by
  induction reads using List.reverseRecOn with
  | nil => exact ⟨start_inStep, rfl, fun r hr => absurd hr List.not_mem_nil⟩
  | append_singleton reads bs ih =>
      obtain ⟨hin, hwritten, hoffered⟩ := ih
      obtain ⟨hin', hwritten', hoffered'⟩ := hin.handle bs
      rw [run_snoc]
      refine ⟨hin', ?_, ?_⟩
      · rw [hwritten', hwritten]
        simp
      · rw [hoffered']
        intro r hr
        rcases List.mem_append.mp hr with hr | hr
        · exact hoffered r hr
        · obtain rfl := List.mem_singleton.mp hr
          have hc := hin.counter
          unfold Inside rxSize rxMax at *
          show (run reads).uRxCounter + 256 ≤ 2048
          omega

/-- **The echo.**  After any sequence of events the bytes written are the bytes read, every
region offered lay inside the buffer, both pointers stand at the same entry, which is not
the last one, and a whole read fits behind what is there.  Within the next event, the
pointers stand at such entries as well. -/
theorem echo_lossless (reads : List UartRead) :
    (run reads).written = (reads.map UartRead.bytes).flatten ∧
      (∀ r ∈ (run reads).offered, Inside r) ∧
      (run reads).uRxDataIN ≤ uRxNum - 2 ∧ (run reads).uRxDataOUT = (run reads).uRxDataIN ∧
      (run reads).uRxCounter ≤ rxSize - rxMax ∧
      ∀ bs : UartRead, (dataResive bs (run reads)).uRxDataIN ≤ uRxNum - 2 ∧
        (dataResive bs (run reads)).uRxDataOUT ≤ uRxNum - 2 := by
  obtain ⟨hin, hwritten, hoffered⟩ := run_inStep reads
  refine ⟨hwritten, hoffered, hin.entry, hin.same, hin.counter, fun bs => ?_⟩
  have hr := hin.received bs
  rw [hr.entry, hr.out]
  exact ⟨nextEntry_le hin.entry hin.last, hin.entry⟩

end IntercomSalve.Rs485
