/-
# `Receive` — message 122: the receive parser

    memset (pRecv, 0, uDataSize + 1);
    ret = KING_SocketRecv (s_socketFd, pRecv, uDataSize, 0);
    …
    is_cmd:  if (handle_deviation < ret) { match a frame here; advance; goto is_cmd; }

`message122` is the part before the label, `isCmd` one pass from the label to the
next jump back to it.  `ret` is the length of what was received; the comparisons
of `ret` with `uint32` positions are made in `uint32`, so `ret - 8 -
handle_deviation` is a very large number when fewer than eight bytes are left.
-/
import IntercomSalve.Calls

namespace IntercomSalve

open Goto

/-- The loop of `my_strcmp`, with `n` bytes left to compare from position `p` on. -/
def myStrcmpLoop (val1 val2 : Mem) : (p n : Nat) → Nat
  | _, 0 => 0
  | p, n + 1 => if val1 p ≠ val2 p then p + 1 else myStrcmpLoop val1 val2 (p + 1) n

/-- `my_strcmp (val1, val2, line)`: 0, or the place of the first difference. -/
def myStrcmp (val1 val2 : Mem) (line : Nat) : Nat := myStrcmpLoop val1 val2 0 line

/-- A header stands at the cursor. -/
def headerAt (s : App) : Prop :=
  myStrcmp s.socketDataHandle (s.rx.bytesAt 0) 4 = 0

instance (s : App) : Decidable (headerAt s) := by unfold headerAt; infer_instance

/-- The first five bytes of `socket_data_handle`, which every frame starts with. -/
def HandleOk (s : App) : Prop :=
  s.socketDataHandle 0 = 0xAA ∧ s.socketDataHandle 1 = 0xFA ∧ s.socketDataHandle 2 = 0x00 ∧
    s.socketDataHandle 3 = 0x00 ∧ s.socketDataHandle 4 = 0x01

theorem myStrcmpLoop_eq_zero {val1 val2 : Mem} {p n : Nat} :
    myStrcmpLoop val1 val2 p n = 0 ↔ ∀ k, k < n → val1 (p + k) = val2 (p + k) := by
  induction n generalizing p with
  | zero => simp [myStrcmpLoop]
  | succ n ih =>
      unfold myStrcmpLoop
      split
      · next hne =>
          constructor
          · intro h
            exact absurd h (Nat.succ_ne_zero p)
          · intro h
            exact absurd (h 0 (Nat.succ_pos n)) hne
      · next heq =>
          rw [ih]
          constructor
          · intro h k hk
            cases k with
            | zero => exact not_not.mp heq
            | succ k =>
                have hshift : p + (k + 1) = p + 1 + k := by omega
                rw [hshift]
                exact h k (by omega)
          · intro h k hk
            have hshift : p + 1 + k = p + (k + 1) := by omega
            rw [hshift]
            exact h (k + 1) (by omega)

/-- The header compare only looks at four bytes, and the fifth is free. -/
theorem headerAt_iff {s : App} (h : HandleOk s) :
    headerAt s ↔ s.rx.byteAt 0 = 0xAA ∧ s.rx.byteAt 1 = 0xFA ∧ s.rx.byteAt 2 = 0x00 ∧
      s.rx.byteAt 3 = 0x00 := by
  obtain ⟨h0, h1, h2, h3, -⟩ := h
  have hbyte : ∀ k, s.rx.bytesAt 0 (0 + k) = s.rx.byteAt k := by
    intro k
    simp [Rx.bytesAt, Rx.byteAt, Nat.add_comm]
  unfold headerAt myStrcmp
  rw [myStrcmpLoop_eq_zero]
  simp only [hbyte]
  constructor
  · intro hk
    exact ⟨(hk 0 (by omega)).symm.trans h0, (hk 1 (by omega)).symm.trans h1,
      (hk 2 (by omega)).symm.trans h2, (hk 3 (by omega)).symm.trans h3⟩
  · rintro ⟨b0, b1, b2, b3⟩ k hk
    match k, hk with
    | 0, _ => exact h0.trans b0.symm
    | 1, _ => exact h1.trans b1.symm
    | 2, _ => exact h2.trans b2.symm
    | 3, _ => exact h3.trans b3.symm

/-- What is done with every header: the command, the length, the heartbeat. -/
def readHeader (s : App) : App :=
  { s with
    rx.analysisHandle := (s.rx.byteAt 5).toNat
    rx.currentDataLength := (s.rx.byteAt 6).toNat * 256 + (s.rx.byteAt 7).toNat
    rx.currentDataLengthSave := 0
    link.heartbeatTim := 0 }

/-- `handle_deviation += Current_data_length + n`. -/
def advance (n : Nat) (s : App) : App :=
  { s with rx.handleDeviation := s.rx.handleDeviation + (s.rx.currentDataLength + n) }

/-- `fill_audio` of `lines` bytes from offset `i` of the receive buffer. -/
def fillFrom (i lines : Nat) (s : App) : App :=
  { s with play := fillAudio (s.rx.pRecv.ptr i) lines s.play }

@[simp] theorem fillFrom_rx (i lines : Nat) (s : App) : (fillFrom i lines s).rx = s.rx := rfl

/-! ## The cases of the switch -/

/-- `Current_data_length_save = n`. -/
def setSave (n : Nat) (s : App) : App := { s with rx.currentDataLengthSave := n }

/-- `n` bytes behind the cursor stand `Current_data_length` bytes, as the source asks
it: `ret - n - handle_deviation >= Current_data_length`. -/
def VoiceWhole (n ret : Nat) (s : App) : Prop :=
  s.rx.currentDataLength ≤ sub32 (sub32 ret n) s.rx.handleDeviation

instance (n ret : Nat) (s : App) : Decidable (VoiceWhole n ret s) := by
  unfold VoiceWhole
  infer_instance

/-- `ret - handle_deviation - n`. -/
def voicePart (n ret : Nat) (s : App) : Nat := sub32 (sub32 ret s.rx.handleDeviation) n

/-- A voice frame whose data starts `n` bytes behind the cursor: all of it if it
is there, otherwise what is there, and the rest is awaited. -/
def voiceFrame (n ret : Nat) (s : App) : Jump App :=
  if VoiceWhole n ret s then
    .again (advance n (fillFrom (n + s.rx.handleDeviation) s.rx.currentDataLength s))
  else
    .leave (setSave (voicePart n ret s)
      (fillFrom (n + s.rx.handleDeviation) (voicePart n ret s) s))

theorem voiceFrame_whole {n ret : Nat} {s : App} (h : VoiceWhole n ret s) :
    voiceFrame n ret s =
      .again (advance n (fillFrom (n + s.rx.handleDeviation) s.rx.currentDataLength s)) :=
  if_pos h

theorem voiceFrame_part {n ret : Nat} {s : App} (h : ¬ VoiceWhole n ret s) :
    voiceFrame n ret s = .leave (setSave (voicePart n ret s)
      (fillFrom (n + s.rx.handleDeviation) (voicePart n ret s) s)) :=
  if_neg h

/-- What the acquisition board is told at the log-in. -/
def loginCmd (a b c : UInt8) (s : App) : App :=
  App.postUart3 .uart3Writelogin
    { s with uart.uart3Writelogin := cmdBytes s.uart.uart3Writelogin 0x04 [a, b, c] }

/-- Logged in: the counters of the connection.  The address switch the source has
here never starts, because nothing sets `new_ip_success`. -/
def Link.loggedIn (l : Link) : Link :=
  { l with
    loginSuccess := 1
    socketCloseNum := 0
    socketContentNum := 0
    newIpSuccess := if l.newIpSuccess = 1 ∧ l.newIpSuccess2 ≠ 1 then 0 else l.newIpSuccess
    newIpSuccess2 := if l.newIpSuccess = 1 ∧ l.newIpSuccess2 ≠ 1 then 0 else l.newIpSuccess2 }

/-- `Socket_instruction_2`: logged in. -/
def loginReturn (s : App) : App :=
  let s := loginCmd (s.rx.byteAt 9) (s.rx.byteAt 10) (s.rx.byteAt 11) s
  advance 8 { s with link := s.link.loggedIn }

/-- The hosts: the first, and the second and third where there are commas; the first
stands in for a missing one. -/
def Call.hosts (c : Call) (r : Rx) : Call :=
  let c := c.setImei 0 (r.bytesAt 8)
  if r.byteAt 23 = 44 then
    let c := c.setImei 1 (r.bytesAt 24)
    if r.byteAt 39 = 44 then c.setImei 2 (r.bytesAt 40) else c.setImei 2 (c.mailList 0)
  else
    let c := c.setImei 1 (c.mailList 0)
    c.setImei 2 (c.mailList 0)

/-- `Socket_instruction_21`: the hosts. -/
def hostList (s : App) : App :=
  advance 8 { s with call := s.call.hosts s.rx, link.mailListTim := 0, link.logonImei := 1 }

/-- A relay command, passed on. -/
def jdqCmd (a b c : UInt8) (s : App) : App :=
  App.postUart3 .uart3Writejdq
    { s with uart.uart3Writejdq := cmdBytes s.uart.uart3Writejdq 0x06 [a, b, c] }

/-- `Socket_instruction_29`: board, relay and state. -/
def relayControl (s : App) : App :=
  advance 8 (jdqCmd (s.rx.byteAt 23) (s.rx.byteAt 24) (s.rx.byteAt 25) s)

/-- `memset` and `memcpy` of `HTTP_URL`. -/
def setUrl (src : Mem) (n : Nat) (s : App) : App :=
  { s with httpUrl := (s.httpUrl.memset 0 129).memcpy 0 src n }

/-- `Socket_instruction_32`: the address of an upgrade. -/
def upgradeUrl (s : App) : App :=
  advance 8 ((setUrl (s.rx.bytesAt 10) (sub32 s.rx.currentDataLength 7) s).log .httpStartTest)

/-- The start of a broadcast, unless one is on: the relays close. -/
def broadcastStart (s : App) : App :=
  if s.call.isMailListALL = 0 then
    sendUart3Write 0x03 (s.rx.byteAt 9) 0
      (App.postMp3 .stopAudioStart { s with call.isMailListALL := 1, call.mailListALLTim := 1 })
  else s

/-- The end of a broadcast by a frame. -/
def broadcastStop (s : App) : App :=
  if s.call.isMailListALL = 1 then
    App.log .audioStop (App.log .audioDevStopPocMode
      (sendUart3Write 0x02 0 0 { s with call.isMailListALL := 0, call.mailListALLTim := 0 }))
  else s

/-- `Current_data_length = n`. -/
def setLength (n : Nat) (s : App) : App := { s with rx.currentDataLength := n }

/-- `analysis_handle = Socket_instruction_10`. -/
def asVoice (s : App) : App :=
  { s with rx.analysisHandle := SocketInstruction.instruction10.code }

/-- The voice of a broadcast, 80 bytes whatever length is declared.  It is awaited
like that of a voice frame, and where it is incomplete the cursor goes on all the
same. -/
def broadcastVoice (ret : Nat) (s : App) : Jump App :=
  match voiceFrame 10 ret (setLength 80 s) with
  | .again s => .again s
  | .leave s => .again (advance 8 s)

/-- `Socket_instruction_34`: a broadcast.  From here on its data counts as voice. -/
def broadcastFrame (ret : Nat) (s : App) : Jump App :=
  if s.rx.byteAt 8 = 1 then broadcastVoice ret (broadcastStart (asVoice s))
  else .again (advance 8 (broadcastStop (asVoice s)))

/-- The case of one command; the others of the enumeration have none, and leave the
loop. -/
def caseOf (ret : Nat) (c : SocketInstruction) (s : App) : Jump App :=
  match c with
  | .instruction4 => .again (advance 8 (dialReqReqCallReturnHander s))
  | .instruction5 => .again (advance 8 (calledReqReqCallReturnHander s))
  | .instruction10 => voiceFrame 8 ret s
  | .instruction12 => .again (advance 8 s)
  | .instruction2 => .again (loginReturn s)
  | .instruction21 => .again (hostList s)
  | .instruction29 => .again (relayControl s)
  | .instruction32 => .again (upgradeUrl s)
  | .instruction34 => broadcastFrame ret s
  | _ => .leave s

/-- The commands that have a case. -/
def SocketInstruction.hasCase : SocketInstruction → Bool
  | instruction2 | instruction4 | instruction5 | instruction10 | instruction12 | instruction21
  | instruction29 | instruction32 | instruction34 => true
  | _ => false

/-- `switch (analysis_handle)`. -/
def dispatch (ret : Nat) (s : App) : Jump App :=
  match SocketInstruction.ofCode s.rx.analysisHandle with
  | some c => if c.hasCase then caseOf ret c (s.log (.instruction c)) else .leave s
  | none => .leave s

theorem dispatch_of_case {ret : Nat} {s : App} {c : SocketInstruction}
    (hc : SocketInstruction.ofCode s.rx.analysisHandle = some c) (hcase : c.hasCase = true) :
    dispatch ret s = caseOf ret c (s.log (.instruction c)) := by
  unfold dispatch
  rw [hc]
  exact if_pos hcase

/-- A command without a case leaves the loop with nothing done. -/
theorem dispatch_cases (ret : Nat) (s : App) :
    (∃ c, SocketInstruction.ofCode s.rx.analysisHandle = some c ∧ c.hasCase = true ∧
        dispatch ret s = caseOf ret c (s.log (.instruction c))) ∨
      dispatch ret s = .leave s := by
  unfold dispatch
  cases SocketInstruction.ofCode s.rx.analysisHandle with
  | none => exact Or.inr rfl
  | some c =>
      by_cases hcase : c.hasCase = true
      · exact Or.inl ⟨c, rfl, hcase, if_pos hcase⟩
      · exact Or.inr (if_neg hcase)

/-! ## The loop, and the message -/

/-- One pass from `is_cmd` to the next. -/
def isCmd (ret : Nat) (s : App) : Jump App :=
  if s.rx.handleDeviation < ret then
    if headerAt s then dispatch ret (readHeader s)
    else .again { s with rx.handleDeviation := s.rx.handleDeviation + 1 }
  else .leave s

/-- The receive buffer after `memset` and `KING_SocketRecv`. -/
def received (uDataSize : Nat) (chunk : List UInt8) (old : Mem) : Mem :=
  (old.memset 0 (uDataSize + 1)).memcpy 0 (Mem.ofList chunk) chunk.length

theorem received_of_lt {uDataSize : Nat} {chunk : List UInt8} {old : Mem} {i : Nat}
    (h : i < chunk.length) : received uDataSize chunk old i = chunk.getD i 0 := by
  simp only [received, Mem.memcpy]
  rw [if_pos ⟨Nat.zero_le i, by omega⟩]
  rfl

theorem received_of_ge {uDataSize : Nat} {chunk : List UInt8} {old : Mem} {i : Nat}
    (h : chunk.length ≤ i) :
    received uDataSize chunk old i = if i ≤ uDataSize then 0 else old i := by
  simp only [received, Mem.memcpy, Mem.memset]
  rw [if_neg (by omega)]
  by_cases hi : i ≤ uDataSize
  · rw [if_pos hi, if_pos (by omega)]
  · rw [if_neg hi, if_neg (by omega)]

/-- The bytes a receive adds to the frame in progress: its rest, or all there are. -/
def resumeLines (ret : Nat) (s : App) : Nat :=
  if sub32 s.rx.currentDataLength s.rx.currentDataLengthSave ≤ ret then
    sub32 s.rx.currentDataLength s.rx.currentDataLengthSave
  else ret

/-- The rest of the frame in progress is there: the cursor stands behind it. -/
def resumeWhole (rest : Nat) (s : App) : App :=
  { fillFrom 0 rest s with
    rx.handleDeviation := s.rx.handleDeviation + rest, rx.currentDataLengthSave := 0 }

/-- It is not, and all of the chunk belongs to it. -/
def resumePart (ret : Nat) (s : App) : App :=
  { fillFrom 0 ret s with rx.currentDataLengthSave := s.rx.currentDataLengthSave + ret }

/-- The rest of a voice frame that an earlier receive left incomplete. -/
def resumeVoice (ret : Nat) (s : App) : Jump App :=
  if SocketInstruction.ofCode s.rx.analysisHandle = some .instruction10 then
    if sub32 s.rx.currentDataLength s.rx.currentDataLengthSave ≤ ret then
      .again (resumeWhole (sub32 s.rx.currentDataLength s.rx.currentDataLengthSave) s)
    else .leave (resumePart ret s)
  else .leave s

/-- `memset` and `KING_SocketRecv`. -/
def socketRecv (uDataSize : Nat) (chunk : List UInt8) (s : App) : App :=
  { s with rx.pRecv := received uDataSize chunk s.rx.pRecv }

/-- `handle_deviation = 0`. -/
def rewind (s : App) : App := { s with rx.handleDeviation := 0 }

/-- Message 122 up to the label: `chunk` is what `KING_SocketRecv` stored, empty
when it failed. -/
def message122 (uDataSize : Nat) (chunk : List UInt8) (s : App) : Jump App :=
  if chunk.length < 1 then .leave (socketRecv uDataSize chunk s)
  else if s.rx.currentDataLengthSave ≠ 0 then
    resumeVoice chunk.length (rewind (socketRecv uDataSize chunk s))
  else .again (rewind (socketRecv uDataSize chunk s))

theorem message122_fresh {n : Nat} {chunk : List UInt8} {s : App}
    (hc : 1 ≤ chunk.length) (hs : s.rx.currentDataLengthSave = 0) :
    message122 n chunk s = .again (rewind (socketRecv n chunk s)) := by
  unfold message122
  rw [if_neg (Nat.not_lt.mpr hc), if_neg (not_not.mpr hs)]

/-- Message 122 handled to its end: the label is not reached, or the loop ends. -/
inductive Handles122 (uDataSize : Nat) (chunk : List UInt8) (s t : App) : Prop
  | noLoop : message122 uDataSize chunk s = .leave t → Handles122 uDataSize chunk s t
  | loop {u : App} : message122 uDataSize chunk s = .again u →
      Ends (isCmd chunk.length) u t → Handles122 uDataSize chunk s t

theorem Handles122.det {n : Nat} {chunk : List UInt8} {s t t' : App}
    (h : Handles122 n chunk s t) (h' : Handles122 n chunk s t') : t = t' := by
  rcases h with hl | ⟨hu, he⟩
  · rcases h' with hl' | ⟨hu', he'⟩
    · exact Jump.leave.inj (hl.symm.trans hl')
    · exact nomatch hl.symm.trans hu'
  · rcases h' with hl' | ⟨hu', he'⟩
    · exact nomatch hu.symm.trans hl'
    · obtain rfl := Jump.again.inj (hu.symm.trans hu')
      exact he.det he'

end IntercomSalve
