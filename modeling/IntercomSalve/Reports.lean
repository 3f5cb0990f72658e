/-
# `Reports` — the frames of the acquisition board, uploaded by address

A report frame of the acquisition board is read into `temp`, and message 129, 131 or 132
is posted with the address `temp + 5`; the socket thread uploads what stands there when it
gets to the message.  The next read overwrites it.

Like the relay commands (`Relay`) this is a queue of pointers, three kinds of them into
one buffer.  A report is uploaded with its own bytes exactly if no read changes the bytes
a waiting message will upload, and the frame was long enough to bring them
(`reports_iff`).
-/
import IntercomSalve.Relay

namespace IntercomSalve

/-- How many bytes from `temp + 5` on a message uploads. -/
def SocketMsg.reportSize : SocketMsg → Nat
  | .msg129 => 3
  | .msg131 => 8
  | .msg132 => 4
  | _ => 0

/-- The report that a waiting message stands for now. -/
def reportView (pData : Mem) (m : SocketMsg) : SocketMsg × List UInt8 :=
  (m, pData.slice 0 m.reportSize)

/-! ## What is received, and what is uploaded -/

/-- The reports received on UART3, each with its bytes, and the reports uploaded. -/
structure ReportHistory where
  received : List (SocketMsg × List UInt8)
  uploaded : List (SocketMsg × List UInt8)

/-- The report frame that a step reads, with its own bytes. -/
def reportReceived (e : Run.Step Act Sys) : List (SocketMsg × List UInt8) :=
  match e.act, e.pre.app.audioMsgs with
  | .audio io, .uart3Read :: _ =>
      (readReport io e.pre.app).toList.map fun m => (m, (io.uartRead.drop 5).take m.reportSize)
  | _, _ => []

/-- The bytes that a step gives to `KING_SocketSend`. -/
def newlySent (e : Run.Step Act Sys) : List UInt8 :=
  e.post.app.sent.drop e.pre.app.sent.length

/-- Where the bytes of a report stand in what is sent: behind the header, the IMEI and the
commas, in one frame or two. -/
def reportPlaces : SocketMsg → List Nat
  | .msg129 => [24, 26, 28]
  | .msg131 => [26, 27, 29, 30, 57, 58, 60, 61]
  | .msg132 => [23, 24, 25, 26]
  | _ => []

/-- The report that a step uploads, read out of what it sends. -/
def reportUploaded (e : Run.Step Act Sys) : List (SocketMsg × List UInt8) :=
  match e.act, e.pre.app.socketMsgs with
  | .socket _, m :: _ =>
      if m.isReport then [(m, (reportPlaces m).map fun k => (newlySent e).getD k 0)] else []
  | _, _ => []

/-- A step, observed. -/
def ReportHistory.after (h : ReportHistory) (e : Run.Step Act Sys) : ReportHistory :=
  ⟨h.received ++ reportReceived e, h.uploaded ++ reportUploaded e⟩

/-- The history of a run. -/
def reportHistory (l : List (Run.Step Act Sys)) : ReportHistory :=
  l.foldl ReportHistory.after ⟨[], []⟩

/-- The reports uploaded, and those the waiting messages stand for, are the ones received:
each is uploaded once, with its own bytes. -/
def UploadedAsReceived (h : ReportHistory) (s : App) : Prop :=
  Pointers.Intact (reportView s.wires.pData) ⟨s.wires.reports, h.received, h.uploaded⟩

instance (h : ReportHistory) (s : App) : Decidable (UploadedAsReceived h s) := by
  unfold UploadedAsReceived Pointers.Intact
  infer_instance

/-- A read of UART3 leaves alone what the waiting messages will upload, and brings all the
bytes of the report it reads. -/
def LeavesReports (e : Run.Step Act Sys) : Prop :=
  match e.act, e.pre.app.audioMsgs with
  | .audio io, .uart3Read :: _ =>
      readsUart3 io e.pre.app →
        (∀ m ∈ e.pre.app.wires.reports, (readTemp io e.pre.app).uart.temp.slice 5 m.reportSize =
          e.pre.app.uart.temp.slice 5 m.reportSize) ∧
        ∀ m ∈ readReport io e.pre.app, 5 + m.reportSize ≤ io.uartRead.length
  | _, _ => True

instance (e : Run.Step Act Sys) : Decidable (LeavesReports e) := by
  unfold LeavesReports
  split <;> infer_instance

/-! ## Steps -/

theorem ptr_slice (m : Mem) (i n : Nat) : (m.ptr i).slice 0 n = m.slice i n :=
  Mem.slice_congr fun k _ => by rw [Mem.ptr_apply, Nat.zero_add]

/-- What a report message sends has the bytes at `temp + 5` in its places. -/
theorem reportFrames_bytes (io : Platform) {m : SocketMsg} (hm : m.isReport = true) (s : App) :
    (reportPlaces m).map (fun k => ((messageFrames io m s).flatMap Frame.bytes).getD k 0) =
      s.wires.pData.slice 0 m.reportSize := by
  cases m with
  | msg129 =>
      simp [messageFrames, reportPlaces, SocketMsg.reportSize, Mem.slice, List.range_succ,
        alarmReport, Frame.bytes, Frame.own, App.wires, Mem.ptr]
  | msg131 =>
      simp [messageFrames, reportPlaces, SocketMsg.reportSize, Mem.slice, List.range_succ,
        countReport, Frame.bytes, Frame.own, App.wires, Mem.ptr]
  | msg132 =>
      simp [messageFrames, reportPlaces, SocketMsg.reportSize, Mem.slice, List.range_succ,
        relayReport, Frame.bytes, Frame.own, App.wires, Mem.ptr]
  | _ => exact absurd hm (by simp [SocketMsg.isReport])

/-- A read brings the bytes of a report exactly if it is long enough. -/
theorem readTemp_bytes_iff (io : Platform) (s : App) {n : Nat} (hn : 0 < n) :
    (readTemp io s).uart.temp.slice 5 n = (io.uartRead.drop 5).take n ↔
      5 + n ≤ io.uartRead.length := by
  constructor
  · intro h
    have hlen := congrArg List.length h
    rw [Mem.length_slice, List.length_take, List.length_drop] at hlen
    omega
  · intro h
    apply List.ext_getElem
    · rw [Mem.length_slice, List.length_take, List.length_drop]
      omega
    · intro k hk hk'
      rw [Mem.length_slice] at hk
      have htemp : (readTemp io s).uart.temp (5 + k) = io.uartRead.getD (5 + k) 0 := by
        have hin : s.uart.temp.memcpy 0 (Mem.ofList io.uartRead) io.uartRead.length (0 + (5 + k)) =
            io.uartRead.getD (5 + k) 0 := Mem.memcpy_in (by omega)
        rwa [Nat.zero_add] at hin
      simp [Mem.slice, htemp, List.getElem?_eq_getElem (show 5 + k < io.uartRead.length by omega)]

theorem reportView_eq_iff {p p' : Mem} {m : SocketMsg} :
    reportView p' m = reportView p m ↔ p'.slice 0 m.reportSize = p.slice 0 m.reportSize := by
  simp [reportView]

/-- The reports that a read posts have a size. -/
theorem readReport_size {io : Platform} {s : App} {m : SocketMsg} (h : readReport io s = some m) :
    0 < m.reportSize := by
  unfold readReport reportOf at h
  repeat' split at h
  all_goals first | (obtain rfl := Option.some.inj h; decide) | exact nomatch h

/-- **Reading UART3.** -/
theorem read_uploaded_iff {h : ReportHistory} (io : Platform) {s : App}
    (hq : UploadedAsReceived h s) :
    Pointers.Intact (reportView ((readTemp io s).uart.temp.ptr 5))
        ⟨s.wires.reports ++ (readReport io s).toList,
          h.received ++ (readReport io s).toList.map fun m =>
            (m, (io.uartRead.drop 5).take m.reportSize), h.uploaded⟩ ↔
      (∀ m ∈ s.wires.reports, (readTemp io s).uart.temp.slice 5 m.reportSize =
          s.uart.temp.slice 5 m.reportSize) ∧
        ∀ m ∈ readReport io s, 5 + m.reportSize ≤ io.uartRead.length := by
  have hview : ∀ m, reportView ((readTemp io s).uart.temp.ptr 5) m = reportView s.wires.pData m ↔
      (readTemp io s).uart.temp.slice 5 m.reportSize = s.uart.temp.slice 5 m.reportSize := by
    intro m
    rw [reportView_eq_iff, ptr_slice]
    show _ = (s.uart.temp.ptr 5).slice 0 m.reportSize ↔ _
    rw [ptr_slice]
  cases hr : readReport io s with
  | none =>
      have hnone : ∀ m ∈ (none : Option SocketMsg), 5 + m.reportSize ≤ io.uartRead.length :=
        fun m hm => nomatch hm
      simp only [Option.toList_none, List.append_nil, List.map_nil]
      rw [Pointers.intact_rewrite hq, and_iff_left hnone]
      exact forall_congr' fun m => imp_congr_right fun _ => hview m
  | some m =>
      have hown : reportView ((readTemp io s).uart.temp.ptr 5) m =
          (m, (io.uartRead.drop 5).take m.reportSize) ↔ 5 + m.reportSize ≤ io.uartRead.length := by
        unfold reportView
        rw [ptr_slice, Prod.mk.injEq, and_iff_right rfl]
        exact readTemp_bytes_iff io s (readReport_size hr)
      refine (Pointers.intact_post (q := ⟨s.wires.reports, h.received, h.uploaded⟩)).trans ?_
      rw [Pointers.intact_rewrite hq, hown]
      constructor
      · rintro ⟨hkeep, hlen⟩
        refine ⟨fun k hk => (hview k).mp (hkeep k hk), fun k hk => ?_⟩
        obtain rfl := Option.some.inj hk
        exact hlen
      · rintro ⟨hkeep, hlen⟩
        exact ⟨fun k hk => (hview k).mpr (hkeep k hk), hlen m rfl⟩

/-- What a step sends, read out of the log. -/
theorem Steps.newlySent_eq {x y : Sys} {a : Act} (h : Steps x a y) (hx : HandleOk x.app) :
    newlySent ⟨x, a, y⟩ = (effectOf a x).frames.flatMap Frame.bytes := by
  unfold newlySent
  rw [h.sent_eq hx, List.drop_left' rfl]

theorem Effect.after_reports (e : Effect) (w : Wires) :
    (e.after w).reports = w.reports ∧ (e.after w).pData = w.pData := by
  unfold Effect.after
  split <;> exact ⟨rfl, rfl⟩

/-- **Taking a message** of the socket thread: a report is uploaded with what stands at
`temp + 5`. -/
theorem Steps.taken_uploaded {h : ReportHistory} {s t : App} {io : Platform} {m : SocketMsg}
    {ms : List SocketMsg} (hms : s.socketMsgs = m :: ms)
    (hs : Steps ⟨s, none⟩ (.socket io) ⟨t, none⟩) (hx : HandleOk s)
    (hq : UploadedAsReceived h s) :
    UploadedAsReceived (h.after ⟨⟨s, none⟩, .socket io, ⟨t, none⟩⟩) t := by
  have hw : t.wires = _ := hs.wires_eq hx
  have hreports : t.wires.reports = ms.filter SocketMsg.isReport := by
    rw [hw]
    refine (Effect.after_reports _ _).1.trans ?_
    show s.socketMsgs.tail.filter SocketMsg.isReport = _
    rw [hms]
    rfl
  have hpData : t.wires.pData = s.wires.pData := by
    rw [hw]
    exact (Effect.after_reports _ _).2
  have hwaiting : s.wires.reports = [m].filter SocketMsg.isReport ++ ms.filter SocketMsg.isReport := by
    show s.socketMsgs.filter SocketMsg.isReport = _
    rw [hms, ← List.filter_append]
    rfl
  unfold UploadedAsReceived at hq ⊢
  rw [hreports, hpData]
  rw [hwaiting] at hq
  unfold ReportHistory.after reportReceived reportUploaded
  simp only [hms, List.append_nil]
  cases hm : m.isReport with
  | false =>
      rw [List.filter_cons_of_neg (by simp [hm])] at hq
      simpa using hq
  | true =>
      have hframes : (effectOf (.socket io) ⟨s, none⟩).frames = messageFrames io m s := by
        simp only [effectOf, hms]
        rfl
      rw [List.filter_cons_of_pos hm] at hq
      rw [if_pos rfl, hs.newlySent_eq hx, hframes, reportFrames_bytes io hm]
      exact Pointers.intact_take.mpr hq

/-- **Taking a message** of the audio thread. -/
theorem Steps.read_uploaded {h : ReportHistory} {s t : App} {io : Platform} {m : AudioMsg}
    {ms : List AudioMsg} (hms : s.audioMsgs = m :: ms)
    (hs : Steps ⟨s, none⟩ (.audio io) ⟨t, none⟩) (hx : HandleOk s)
    (hq : UploadedAsReceived h s) :
    UploadedAsReceived (h.after ⟨⟨s, none⟩, .audio io, ⟨t, none⟩⟩) t ↔
      LeavesReports ⟨⟨s, none⟩, .audio io, ⟨t, none⟩⟩ := by
  have hw : t.wires = _ := hs.wires_eq hx
  unfold UploadedAsReceived at hq ⊢
  unfold ReportHistory.after reportReceived reportUploaded LeavesReports
  rw [hw]
  simp only [wiresAfter, hms, List.append_nil]
  cases m with
  | uart3Read =>
      simp only [audioWires]
      by_cases hread : readsUart3 io s
      · rw [if_pos hread]
        refine (read_uploaded_iff io hq).trans ?_
        exact ⟨fun h _ => h, fun h => h hread⟩
      · have hnone : readReport io s = none := if_neg fun h => hread h.1
        rw [if_neg hread, hnone]
        refine iff_of_true ?_ fun h => absurd h hread
        simpa using hq
  | _ => exact iff_of_true (by simpa [audioWires] using hq) trivial

/-- **A step** from a state in which the reports are right. -/
theorem Steps.uploaded_iff {h : ReportHistory} {x y : Sys} {a : Act} (hs : Steps x a y)
    (hx : HandleOk x.app) (hq : UploadedAsReceived h x.app) :
    UploadedAsReceived (h.after ⟨x, a, y⟩) y.app ↔ LeavesReports ⟨x, a, y⟩ := by
  have hw := hs.wires_eq hx
  have hsame : y.app.wires.reports = x.app.wires.reports → y.app.wires.pData = x.app.wires.pData →
      reportReceived ⟨x, a, y⟩ = [] → reportUploaded ⟨x, a, y⟩ = [] →
      UploadedAsReceived (h.after ⟨x, a, y⟩) y.app := by
    intro h1 h2 h3 h4
    unfold UploadedAsReceived ReportHistory.after
    rw [h1, h2, h3, h4, List.append_nil, List.append_nil]
    exact hq
  cases a with
  | isCmd =>
      refine iff_of_true (hsame ?_ ?_ rfl rfl) trivial
      · rw [hw]
        exact (Effect.after_reports _ _).1
      · rw [hw]
        exact (Effect.after_reports _ _).2
  | socket io =>
      have hs' := hs
      cases hs with
      | socket hms _ => exact iff_of_true (hs'.taken_uploaded hms hx hq) trivial
  | audio io =>
      have hs' := hs
      cases hs with
      | audio hms => exact hs'.read_uploaded hms hx hq
  | _ =>
      refine iff_of_true (hsame ?_ ?_ rfl rfl) trivial
      · rw [hw]
        rfl
      · rw [hw]
        rfl

/-! ## Runs -/

/-- **Reports.**  In a run from power-on every report received on UART3 is uploaded once and
with its own bytes, exactly if no read changes what a waiting message will upload, and each
brings all the bytes of its report. -/
theorem reports_iff {l : List (Run.Step Act Sys)} {y : Sys} (hr : Run.Runs exec Sys.init l y) :
    (∀ l₁ e l₂, l = l₁ ++ e :: l₂ → UploadedAsReceived (reportHistory (l₁ ++ [e])) e.post.app) ↔
      ∀ e ∈ l, LeavesReports e :=
  hr.forall_history_iff ReportHistory.after ⟨[], []⟩ (fun h x => UploadedAsReceived h x.app) rfl
    fun _ _ _ _ hreach hy he => (exec_eq_some.mp he).uploaded_iff (Reachable.handleOk hreach) hy

/-- A platform on which `bs` has come in on UART3. -/
def Platform.reads (bs : List UInt8) : Platform :=
  { Platform.silent with uartAvailable := bs.length, uartRead := bs }

/-- The hosts are known: UART3 is read from here on. -/
def hostsFrame : List UInt8 :=
  [0xAA, 0xFA, 0x00, 0x00, 0x01, 0x15, 0x00, 0x0F] ++ List.replicate 15 0x37

/-- An alarm and the counters, each uploaded before the next read. -/
theorem alarmThenCounters_uploaded :
    ∃ l y, Run.Runs exec Sys.init l y ∧
      (reportHistory l).uploaded = [(.msg129, [1, 2, 3]), (.msg131, [1, 2, 3, 4, 5, 6, 7, 8])] ∧
      ∀ l₁ e l₂, l = l₁ ++ e :: l₂ → UploadedAsReceived (reportHistory (l₁ ++ [e])) e.post.app := by
  obtain ⟨l, y, hr, hq⟩ := Runs.of_acts_test (l := [.socket Platform.silent,
    .audio Platform.silent, .socketEvent (.readInd 23), .recv hostsFrame, .isCmd, .isCmd,
    .uart3Event, .audio (Platform.reads [0x53, 0x59, 0, 0, 2, 1, 2, 3]), .socket Platform.silent,
    .uart3Event, .audio (Platform.reads [0x53, 0x59, 0, 0, 3, 1, 2, 3, 4, 5, 6, 7, 8]),
    .socket Platform.silent])
    (q := fun l _ => l.all (fun e => decide (LeavesReports e)) && (reportHistory l).uploaded ==
      [(.msg129, [1, 2, 3]), (.msg131, [1, 2, 3, 4, 5, 6, 7, 8])]) (by decide +kernel)
  obtain ⟨hall, huploaded⟩ := (Bool.and_eq_true _ _).mp hq
  exact ⟨l, y, hr, by simpa using huploaded,
    (reports_iff hr).mpr fun e he => of_decide_eq_true (List.all_eq_true.mp hall e he)⟩

/-- Two alarms before the socket thread gets to them: the second is uploaded twice. -/
theorem twoAlarms_not_uploaded :
    ∃ l y, Run.Runs exec Sys.init l y ∧
      ¬ ∀ l₁ e l₂, l = l₁ ++ e :: l₂ →
        UploadedAsReceived (reportHistory (l₁ ++ [e])) e.post.app := by
  obtain ⟨l, y, hr, hq⟩ := Runs.of_acts_test (l := [.socket Platform.silent,
    .audio Platform.silent, .socketEvent (.readInd 23), .recv hostsFrame, .isCmd, .isCmd,
    .uart3Event, .uart3Event, .audio (Platform.reads [0x53, 0x59, 0, 0, 2, 1, 2, 3]),
    .audio (Platform.reads [0x53, 0x59, 0, 0, 2, 4, 5, 6]), .socket Platform.silent,
    .socket Platform.silent])
    (q := fun l _ => match l.drop 10 with
      | e :: _ => !decide (UploadedAsReceived (reportHistory (l.take 10 ++ [e])) e.post.app)
      | [] => false) (by decide +kernel)
  refine ⟨l, y, hr, fun h => ?_⟩
  split at hq
  · next e l₂ hdrop =>
      have hsplit : l = l.take 10 ++ e :: l₂ := by rw [← hdrop, List.take_append_drop]
      exact absurd (h _ e l₂ hsplit) (by simpa using hq)
  · exact nomatch hq

end IntercomSalve
