/-
# `BoardFrames` — the frames of the acquisition board, as UART 3 delivers them

The board sends frames of 8, 8, 13 and 9 bytes, one behind the other.  Each
`MSG_EVT_UART3_READ` takes what has come so far, all of it, into `temp`, and looks at one frame,
at the start.  So what becomes of the frames depends on how their bytes were grouped: a second
frame in one read is lost, and of a frame in two reads more is looked at than there is.

    every frame is acted on once, and only with its own bytes  ⟺  each read is one frame
                                                                        (`servesFrames_iff`)

The proof counts.  A read is acted on at most once, and it must have the bytes that the handler
uses.  If all frames are acted on, the reads have no byte to spare.
-/
import IntercomSalve.Reports

namespace IntercomSalve

/-! ## Frames -/

/-- How many bytes behind the type the handler of a frame uses. -/
def boardDataSize (type : UInt8) : Option Nat :=
  if type = 1 then some 3
  else if type = 2 then some 3
  else if type = 3 then some 8
  else if type = 4 then some 4
  else none

/-- A frame of the acquisition board. -/
structure BoardFrame where
  type : UInt8
  data : List UInt8
  size : boardDataSize type = some data.length

/-- What its handler goes by. -/
def BoardFrame.content (f : BoardFrame) : UInt8 × List UInt8 := (f.type, f.data)

/-- The bytes of a frame with that content. -/
def frameBytes (c : UInt8 × List UInt8) : List UInt8 := [0x53, 0x59, 0, 0, c.1] ++ c.2

/-- The bytes of a frame. -/
def BoardFrame.bytes (f : BoardFrame) : List UInt8 := frameBytes f.content

theorem length_frameBytes (c : UInt8 × List UInt8) : (frameBytes c).length = 5 + c.2.length :=
  List.length_append

theorem boardDataSize_le {type : UInt8} {n : Nat} (h : boardDataSize type = some n) : n ≤ 8 := by
  unfold boardDataSize at h
  repeat' split at h
  all_goals first | (obtain rfl := Option.some.inj h; decide) | exact absurd h (by simp)

/-! ## Reads -/

/-- `uint8 temp[100]`. -/
def tempSize : Nat := 100

/-- How many bytes of `temp` the case looks at: the comparisons stop at the first byte that
differs. -/
def tempUsed (temp : Mem) : Nat :=
  if temp 0 ≠ 0x53 then 1
  else if temp 1 ≠ 0x59 then 2
  else if temp 2 ≠ 0 then 3
  else if temp 3 ≠ 0 then 4
  else 5 + (boardDataSize (temp 4)).getD 0

/-- The frame that is acted on: its type and what the handler finds behind it. -/
def actedOn (isHostBusy : UInt8) (temp : Mem) : Option (UInt8 × List UInt8) :=
  if isUart3Frame temp ∧ ¬ (temp 4 = 1 ∧ isHostBusy ≠ 0) then
    (boardDataSize (temp 4)).map fun n => (temp 4, temp.slice 5 n)
  else none

/-- What is done with a frame of a type. -/
def boardHandler (type : UInt8) (s : App) : App :=
  if type = 1 then buttonFrame s
  else if type = 2 then s.postSocket .msg129
  else if type = 3 then s.postSocket .msg131
  else s.postSocket .msg132

/-- A read acts on its frame, if there is one, and does nothing else. -/
theorem uart3Read_eq {io : Platform} {s : App} (hread : readsUart3 io s) :
    uart3Read io s =
      (actedOn s.call.isHostBusy (readTemp io s).uart.temp).elim (readTemp io s) fun c =>
        boardHandler c.1 (readTemp io s) := by
  have hguard : ¬ (s.link.mailListTim ≠ 0 ∨ io.uartAvailable < 2) := by
    rintro (h | h)
    · exact h hread.1
    · exact Nat.not_lt.mpr hread.2 h
  have hbusy : (readTemp io s).call = s.call := rfl
  unfold uart3Read actedOn boardHandler
  rw [if_neg hguard]
  generalize readTemp io s = t at hbusy
  rw [← hbusy]
  by_cases hframe : isUart3Frame t.uart.temp
  · rw [if_pos hframe]
    unfold uart3Frame boardDataSize
    by_cases h1 : t.uart.temp 4 = 1
    · by_cases hhost : t.call.isHostBusy = 0
      · simp [hframe, h1, hhost]
      · have hcontinue : buttonFrame t = t := if_pos hhost
        simp [h1, hhost, hcontinue]
    · by_cases h2 : t.uart.temp 4 = 2
      · simp [hframe, h2]
      · by_cases h3 : t.uart.temp 4 = 3
        · simp [hframe, h3]
        · by_cases h4 : t.uart.temp 4 = 4
          · simp [hframe, h4]
          · simp [h1, h2, h3, h4]
  · rw [if_neg hframe, if_neg fun h => hframe h.1]
    rfl

/-- The bytes that a step reads on UART 3. -/
def boardRead (e : Run.Step Act Sys) : Option (List UInt8) :=
  match e.act, e.pre.app.audioMsgs with
  | .audio io, .uart3Read :: _ => if readsUart3 io e.pre.app then some io.uartRead else none
  | _, _ => none

/-- `temp` once a step has read. -/
def boardTemp (e : Run.Step Act Sys) : Mem :=
  match e.act with
  | .audio io => (readTemp io e.pre.app).uart.temp
  | _ => e.pre.app.uart.temp

/-- The frame that a step acts on. -/
def boardActs (e : Run.Step Act Sys) : Option (UInt8 × List UInt8) :=
  (boardRead e).bind fun _ => actedOn e.pre.app.call.isHostBusy (boardTemp e)

/-- All that is read in a run. -/
def boardReads (l : List (Run.Step Act Sys)) : List (List UInt8) := l.filterMap boardRead

/-- A run in which the frames `fs` come in and no host is busy.  One byte may still be waiting:
the thread does not read fewer than two. -/
structure Delivers (fs : List BoardFrame) (l : List (Run.Step Act Sys)) : Prop where
  run : ∃ y, Run.Runs exec Sys.init l y
  stream : ∃ rest, rest.length < 2 ∧ (boardReads l).flatten ++ rest = fs.flatMap BoardFrame.bytes
  idle : ∀ e ∈ l, (boardRead e).isSome → e.pre.app.call.isHostBusy = 0

/-- No read overruns `temp`, the frames are acted on once each and in order, and nothing behind
what was read is used. -/
structure ServesFrames (fs : List BoardFrame) (l : List (Run.Step Act Sys)) : Prop where
  fits : ∀ bs ∈ boardReads l, bs.length ≤ tempSize
  acts : l.filterMap boardActs = fs.map BoardFrame.content
  within : ∀ e ∈ l, ∀ bs, boardRead e = some bs → tempUsed (boardTemp e) ≤ bs.length

/-! ## One read -/

theorem boardRead_eq_some {e : Run.Step Act Sys} {bs : List UInt8} (h : boardRead e = some bs) :
    ∃ io ms, e.act = .audio io ∧ e.pre.app.audioMsgs = .uart3Read :: ms ∧
      readsUart3 io e.pre.app ∧ io.uartRead = bs := by
  unfold boardRead at h
  split at h
  · next io ms ha hm =>
      split at h
      · next hread => exact ⟨io, ms, ha, hm, hread, Option.some.inj h⟩
      · exact absurd h (by simp)
  · exact absurd h (by simp)

/-- `temp` starts with what was read. -/
theorem boardTemp_slice {e : Run.Step Act Sys} {bs : List UInt8} (h : boardRead e = some bs) :
    (boardTemp e).slice 0 bs.length = bs := by
  obtain ⟨io, ms, ha, -, -, rfl⟩ := boardRead_eq_some h
  have htemp : boardTemp e = (readTemp io e.pre.app).uart.temp := by
    unfold boardTemp
    rw [ha]
  rw [htemp]
  exact (Mem.slice_memcpy _ 0 _ _).trans (Mem.slice_ofList io.uartRead)

/-- **A read step** does what the handler does with the frame it acts on. -/
theorem Steps.board_acts {x y : Sys} {a : Act} {bs : List UInt8} (h : Steps x a y)
    (hread : boardRead ⟨x, a, y⟩ = some bs) :
    ∃ t, t.uart.temp = boardTemp ⟨x, a, y⟩ ∧
      y.app = ((boardActs ⟨x, a, y⟩).elim t fun c => boardHandler c.1 t) := by
  obtain ⟨io, ms, ha, hm, hr, -⟩ := boardRead_eq_some hread
  obtain rfl : a = .audio io := ha
  have hacts : boardActs ⟨x, .audio io, y⟩ =
      actedOn x.app.call.isHostBusy (readTemp io x.app).uart.temp := by
    unfold boardActs
    rw [hread]
    rfl
  cases h with
  | @audio s m ms' _ hms =>
      obtain ⟨rfl, rfl⟩ := List.cons.inj (hms.symm.trans hm)
      refine ⟨readTemp io { s with audioMsgs := ms' }, rfl, ?_⟩
      rw [hacts]
      exact uart3Read_eq (s := { s with audioMsgs := ms' }) hr

/-- What is acted on is what `temp` starts with, and no more than that is used. -/
theorem actedOn_eq_some {temp : Mem} {c : UInt8 × List UInt8} (h : actedOn 0 temp = some c) :
    temp.slice 0 (frameBytes c).length = frameBytes c ∧ tempUsed temp = (frameBytes c).length := by
  unfold actedOn at h
  split at h
  · next hframe =>
      obtain ⟨⟨h0, h1, h2, h3⟩, -⟩ := hframe
      obtain ⟨n, hn, rfl⟩ := Option.map_eq_some_iff.mp h
      constructor
      · have hhead : temp.slice 0 5 = [0x53, 0x59, 0, 0, temp 4] := by
          simp [Mem.slice, List.range_succ, h0, h1, h2, h3]
        rw [length_frameBytes, Mem.length_slice, Mem.slice_add, hhead]
        rfl
      · simp [tempUsed, length_frameBytes, h0, h1, h2, h3, hn]
  · exact absurd h (by simp)

/-- A frame at the start of `temp` is acted on. -/
theorem actedOn_frame {temp : Mem} (f : BoardFrame)
    (h : temp.slice 0 f.bytes.length = f.bytes) :
    actedOn 0 temp = some f.content ∧ tempUsed temp = f.bytes.length := by
  have hlen : f.bytes.length = 5 + f.data.length := length_frameBytes f.content
  have hsplit : temp.slice 0 5 ++ temp.slice 5 f.data.length =
      [0x53, 0x59, 0, 0, f.type] ++ f.data := by
    rw [hlen, Mem.slice_add] at h
    exact h
  obtain ⟨hhead, hdata⟩ := List.append_inj hsplit (by simp)
  obtain ⟨h0, h1, h2, h3, h4⟩ : temp 0 = 0x53 ∧ temp 1 = 0x59 ∧ temp 2 = 0 ∧ temp 3 = 0 ∧
      temp 4 = f.type := by simpa [Mem.slice, List.range_succ] using hhead
  have hsize : boardDataSize (temp 4) = some f.data.length := h4 ▸ f.size
  constructor
  · unfold actedOn
    rw [if_pos ⟨⟨h0, h1, h2, h3⟩, fun h => h.2 rfl⟩, hsize, Option.map_some, hdata, h4]
    rfl
  · simp [tempUsed, hlen, h0, h1, h2, h3, hsize]

theorem boardActs_of_none {e : Run.Step Act Sys} (h : boardRead e = none) : boardActs e = none := by
  unfold boardActs
  rw [h]
  rfl

theorem boardActs_of_some {e : Run.Step Act Sys} {bs : List UInt8} (h : boardRead e = some bs)
    (hidle : (boardRead e).isSome → e.pre.app.call.isHostBusy = 0) :
    boardActs e = actedOn 0 (boardTemp e) := by
  unfold boardActs
  rw [hidle (by rw [h]; rfl), h]
  rfl

/-! ## All reads -/

/-- The frames that are acted on are no longer than the reads together; if they are as long, they
are the reads. -/
theorem acted_le {l : List (Run.Step Act Sys)}
    (hidle : ∀ e ∈ l, (boardRead e).isSome → e.pre.app.call.isHostBusy = 0)
    (hwithin : ∀ e ∈ l, ∀ bs, boardRead e = some bs → tempUsed (boardTemp e) ≤ bs.length) :
    ((l.filterMap boardActs).flatMap frameBytes).length ≤ (boardReads l).flatten.length ∧
      (((l.filterMap boardActs).flatMap frameBytes).length = (boardReads l).flatten.length →
        boardReads l = (l.filterMap boardActs).map frameBytes) := by
  induction l with
  | nil => exact ⟨Nat.le_refl _, fun _ => rfl⟩
  | cons e l ih =>
      obtain ⟨hle, heq⟩ := ih (fun e he => hidle e (List.mem_cons_of_mem _ he))
        fun e he => hwithin e (List.mem_cons_of_mem _ he)
      unfold boardReads at hle heq ⊢
      cases hread : boardRead e with
      | none =>
          rw [List.filterMap_cons_none hread, List.filterMap_cons_none (boardActs_of_none hread)]
          exact ⟨hle, heq⟩
      | some bs =>
          have hused := hwithin e List.mem_cons_self bs hread
          have hacts := boardActs_of_some hread (hidle e List.mem_cons_self)
          rw [List.filterMap_cons_some hread]
          cases hact : actedOn 0 (boardTemp e) with
          | none =>
              have hpos : 0 < tempUsed (boardTemp e) := by
                unfold tempUsed
                split_ifs <;> omega
              rw [List.filterMap_cons_none (hacts.trans hact), List.flatten_cons,
                List.length_append]
              exact ⟨by omega, fun h => by omega⟩
          | some c =>
              obtain ⟨hslice, hlen⟩ := actedOn_eq_some hact
              rw [List.filterMap_cons_some (hacts.trans hact), List.flatten_cons,
                List.flatMap_cons, List.length_append, List.length_append, List.map_cons]
              refine ⟨by omega, fun h => ?_⟩
              have hbs : bs = frameBytes c := by
                have hsame : bs.length = (frameBytes c).length := by omega
                rw [← boardTemp_slice hread, hsame, hslice]
              rw [hbs, heq (by omega)]

/-- Where each read is a frame, each is acted on and has all that is used. -/
theorem acts_of_reads {l : List (Run.Step Act Sys)} {fs : List BoardFrame}
    (hidle : ∀ e ∈ l, (boardRead e).isSome → e.pre.app.call.isHostBusy = 0)
    (h : boardReads l = fs.map BoardFrame.bytes) :
    l.filterMap boardActs = fs.map BoardFrame.content ∧
      ∀ e ∈ l, ∀ bs, boardRead e = some bs → tempUsed (boardTemp e) ≤ bs.length := by
  induction l generalizing fs with
  | nil =>
      obtain rfl := List.map_eq_nil_iff.mp h.symm
      exact ⟨rfl, fun e he => absurd he List.not_mem_nil⟩
  | cons e l ih =>
      have hidle' : ∀ e ∈ l, (boardRead e).isSome → e.pre.app.call.isHostBusy = 0 :=
        fun e he => hidle e (List.mem_cons_of_mem _ he)
      unfold boardReads at h ih
      cases hread : boardRead e with
      | none =>
          rw [List.filterMap_cons_none hread] at h
          obtain ⟨hcontent, hwithin⟩ := ih hidle' h
          refine ⟨(List.filterMap_cons_none (boardActs_of_none hread)).trans hcontent, fun d hd bs hbs => ?_⟩
          rcases List.mem_cons.mp hd with rfl | hd
          · exact absurd (hread.symm.trans hbs) (Option.some_ne_none bs).symm
          · exact hwithin d hd bs hbs
      | some bs =>
          rw [List.filterMap_cons_some hread] at h
          cases fs with
          | nil => exact absurd h (List.cons_ne_nil _ _)
          | cons f fs =>
              obtain ⟨rfl, htail⟩ := List.cons.inj h
              obtain ⟨hcontent, hwithin⟩ := ih hidle' htail
              obtain ⟨hact, hused⟩ := actedOn_frame f (boardTemp_slice hread)
              have hacts : boardActs e = some f.content :=
                (boardActs_of_some hread (hidle e List.mem_cons_self)).trans hact
              refine ⟨?_, fun d hd bs hbs => ?_⟩
              · rw [List.filterMap_cons_some hacts, hcontent]
                rfl
              · rcases List.mem_cons.mp hd with rfl | hd
                · obtain rfl := Option.some.inj (hread.symm.trans hbs)
                  exact hused.le
                · exact hwithin d hd bs hbs

/-- **The board's frames.**  However their bytes are read, the frames are all acted on once, with
no byte that was not read and without overrunning `temp`, exactly if each read is one frame. -/
theorem servesFrames_iff {fs : List BoardFrame} {l : List (Run.Step Act Sys)}
    (h : Delivers fs l) : ServesFrames fs l ↔ boardReads l = fs.map BoardFrame.bytes := by
  have hbytes : fs.flatMap BoardFrame.bytes = (fs.map BoardFrame.content).flatMap frameBytes := by
    rw [List.flatMap_map]
    rfl
  constructor
  · intro hserves
    obtain ⟨hle, heq⟩ := acted_le h.idle hserves.within
    obtain ⟨rest, -, hstream⟩ := h.stream
    have hlen := congrArg List.length hstream
    rw [List.length_append, hbytes, ← hserves.acts] at hlen
    rw [heq (by omega), hserves.acts, List.map_map]
    rfl
  · intro hreads
    obtain ⟨hacts, hwithin⟩ := acts_of_reads h.idle hreads
    refine ⟨fun bs hbs => ?_, hacts, hwithin⟩
    rw [hreads] at hbs
    obtain ⟨f, -, rfl⟩ := List.mem_map.mp hbs
    have hlen : f.bytes.length = 5 + f.data.length := length_frameBytes f.content
    have hsize := boardDataSize_le f.size
    show f.bytes.length ≤ 100
    omega

/-- Up to the host list. -/
def hostsKnown : List Act :=
  [.socket Platform.silent, .audio Platform.silent, .socketEvent (.readInd 23), .recv hostsFrame,
    .isCmd, .isCmd]

/-- An alarm. -/
def boardAlarm : BoardFrame := ⟨2, [1, 2, 3], rfl⟩

/-- The counters. -/
def boardCount : BoardFrame := ⟨3, [1, 2, 3, 4, 5, 6, 7, 8], rfl⟩

/-- An alarm and the counters, in a read each. -/
theorem twoReads_served :
    ∃ l, Delivers [boardAlarm, boardCount] l ∧ ServesFrames [boardAlarm, boardCount] l := by
  obtain ⟨l, y, hr, hq⟩ := Runs.of_acts_test (l := hostsKnown ++ [.uart3Event,
    .audio (Platform.reads boardAlarm.bytes), .uart3Event,
    .audio (Platform.reads boardCount.bytes)])
    (q := fun l _ => l.all (fun e => !(boardRead e).isSome || e.pre.app.call.isHostBusy == 0) &&
      boardReads l == [boardAlarm.bytes, boardCount.bytes]) (by decide +kernel)
  obtain ⟨hall, hreads⟩ := (Bool.and_eq_true _ _).mp hq
  have hreads' := eq_of_beq hreads
  have hd : Delivers [boardAlarm, boardCount] l := by
    refine ⟨⟨y, hr⟩, ⟨[], by decide, ?_⟩, fun e he hsome => ?_⟩
    · rw [hreads']
      rfl
    · simpa [hsome] using List.all_eq_true.mp hall e he
  exact ⟨l, hd, (servesFrames_iff hd).mpr hreads'⟩

/-- Both in one read: the counters are lost. -/
theorem oneRead_not_served :
    ∃ l, Delivers [boardAlarm, boardCount] l ∧ ¬ ServesFrames [boardAlarm, boardCount] l := by
  obtain ⟨l, y, hr, hq⟩ := Runs.of_acts_test (l := hostsKnown ++ [.uart3Event,
    .audio (Platform.reads (boardAlarm.bytes ++ boardCount.bytes))])
    (q := fun l _ => l.all (fun e => !(boardRead e).isSome || e.pre.app.call.isHostBusy == 0) &&
      (boardReads l == [boardAlarm.bytes ++ boardCount.bytes] &&
        l.filterMap boardActs == [boardAlarm.content])) (by decide +kernel)
  obtain ⟨hall, hends⟩ := (Bool.and_eq_true _ _).mp hq
  obtain ⟨hreads, hacts⟩ := (Bool.and_eq_true _ _).mp hends
  refine ⟨l, ⟨⟨y, hr⟩, ⟨[], by decide, ?_⟩, fun e he hsome => ?_⟩, fun hserves => ?_⟩
  · rw [eq_of_beq hreads]
    rfl
  · simpa [hsome] using List.all_eq_true.mp hall e he
  · have hlost := hserves.acts
    rw [eq_of_beq hacts] at hlost
    exact absurd (congrArg List.length hlost) (by decide)

end IntercomSalve
