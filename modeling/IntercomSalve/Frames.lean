/-
# `Frames` — the server's frames, and receiving them in pieces

A frame of the server is `AA FA 00 00 01`, a command byte, a length in two bytes
and the payload.  TCP delivers a sequence of frames in chunks of its own choice,
so two lists of chunks with the same bytes in them should come to the same:
`SameHandling` says so, and what follows here is what both laws about it rest on.

A frame that stands alone at the start of the buffer (`Frame.alone`) is the
reference.  `Frame.visits` carries what it does to any place in any chunk, as long
as its fields are inside and it does not reset the parser away from the front.
-/
import IntercomSalve.Beyond

namespace IntercomSalve

open Goto

/-- A frame of the server.  Broadcasts have one length. -/
structure Frame where
  cmd : SocketInstruction
  payload : List UInt8
  length_lt : payload.length < 65536
  broadcast : cmd = .instruction34 → payload.length = 82

/-- Header, command, length, payload. -/
def Frame.bytes (f : Frame) : List UInt8 :=
  [0xAA, 0xFA, 0x00, 0x00, 0x01, UInt8.ofNat f.cmd.code, UInt8.ofNat (f.payload.length / 256),
    UInt8.ofNat (f.payload.length % 256)] ++ f.payload

@[simp] theorem Frame.length_bytes (f : Frame) : f.bytes.length = f.payload.length + 8 := by
  simp [Frame.bytes]

/-- Message 122 for one chunk after the other, with nothing in between. -/
inductive Handled : List (List UInt8) → App → App → Prop
  | nil {s : App} : Handled [] s s
  | cons {n : Nat} {chunk : List UInt8} {chunks : List (List UInt8)} {s t u : App} :
      chunk.length ≤ n → Handles122 n chunk s t → Handled chunks t u →
      Handled (chunk :: chunks) s u

/-- The same up to the receive buffer and the position in it; the command and the
length count while a frame is in progress. -/
structure SameEffect (t t' : App) : Prop where
  rest : { t with rx := t'.rx } = t'
  save : t'.rx.currentDataLengthSave = t.rx.currentDataLengthSave
  frame : t.rx.currentDataLengthSave ≠ 0 →
    t'.rx.analysisHandle = t.rx.analysisHandle ∧
      t'.rx.currentDataLength = t.rx.currentDataLength

/-- One chunk, then those behind it: what holds wherever these end, from where the first
one ends, holds wherever they all end. -/
theorem handled_cons {c : List UInt8} {cs : List (List UInt8)} {s : App} {R : App → Prop}
    (h : ∀ n, c.length ≤ n → ∃ t, Handles122 n c s t ∧
      (∃ u, Handled cs t u) ∧ ∀ u, Handled cs t u → R u) :
    (∃ u, Handled (c :: cs) s u) ∧ ∀ u, Handled (c :: cs) s u → R u := by
  constructor
  · obtain ⟨t, hstep, ⟨u, hrest⟩, -⟩ := h _ (Nat.le_refl _)
    exact ⟨u, .cons (Nat.le_refl _) hstep hrest⟩
  · intro u hu
    cases hu with
    | cons hn hf hrest =>
        obtain ⟨t, hstep, -, hR⟩ := h _ hn
        obtain rfl := hf.det hstep
        exact hR u hrest

theorem handled_nil {s : App} {R : App → Prop} (h : R s) :
    (∃ u, Handled [] s u) ∧ ∀ u, Handled [] s u → R u := by
  refine ⟨⟨s, .nil⟩, ?_⟩
  intro u hu
  cases hu
  exact h

/-- The two lists of chunks are handled to an end, with the same effect. -/
structure SameHandling (chunks chunks' : List (List UInt8)) (s : App) : Prop where
  ends : ∃ t, Handled chunks s t
  ends' : ∃ t, Handled chunks' s t
  same : ∀ t t', Handled chunks s t → Handled chunks' s t' → SameEffect t t'

/-- The same globals, with the parser at position `d` of the buffer `q`. -/
def App.placed (q : Mem) (d : Nat) (s : App) : App :=
  { s with rx.pRecv := q, rx.handleDeviation := d }

theorem SameEffect.placed {q : Mem} {d : Nat} (s : App) : SameEffect (s.placed q d) s :=
  ⟨rfl, rfl, fun _ => ⟨rfl, rfl⟩⟩

theorem SameEffect.placed_left {q : Mem} {d : Nat} {s t : App} (h : SameEffect s t) :
    SameEffect (s.placed q d) t :=
  ⟨h.rest, h.save, h.frame⟩

theorem SameEffect.placed_right {q : Mem} {d : Nat} {s t : App} (h : SameEffect s t) :
    SameEffect s (t.placed q d) where
  rest := by
    rw [← h.rest]
    rfl
  save := h.save
  frame := h.frame

theorem SameEffect.refl (s : App) : SameEffect s s := ⟨rfl, rfl, fun _ => ⟨rfl, rfl⟩⟩

theorem SameEffect.trans {s t u : App} (h : SameEffect s t) (h' : SameEffect t u) :
    SameEffect s u where
  rest := by
    rw [← h'.rest, ← h.rest]
  save := h'.save.trans h.save
  frame hs := by
    have h1 := h.frame hs
    have h2 := h'.frame (by rw [h.save]; exact hs)
    exact ⟨h2.1.trans h1.1, h2.2.trans h1.2⟩

/-- Both end like `w`. -/
theorem sameHandling_of_effect {cs cs' : List (List UInt8)} {s w : App}
    (h : (∃ t, Handled cs s t) ∧ ∀ t, Handled cs s t → SameEffect t w)
    (h' : (∃ t, Handled cs' s t) ∧ ∀ t, Handled cs' s t → SameEffect w t) :
    SameHandling cs cs' s :=
  ⟨h.1, h'.1, fun t t' ht ht' => (h.2 t ht).trans (h'.2 t' ht')⟩

theorem move_placed (q q' : Mem) (d e : Nat) (s : App) :
    (s.placed q d).move q' 0 e = s.placed q' (d + e) := rfl

/-- With no frame in progress a chunk is handled by the loop alone. -/
theorem handles122_fresh {n : Nat} {chunk : List UInt8} {s t : App} (hc : 1 ≤ chunk.length)
    (hs : s.rx.currentDataLengthSave = 0) :
    Handles122 n chunk s t ↔
      Ends (isCmd chunk.length) (s.placed (received n chunk s.rx.pRecv) 0) t := by
  have hm := message122_fresh (n := n) hc hs
  constructor
  · rintro (hl | ⟨hu, he⟩)
    · exact nomatch hm.symm.trans hl
    · obtain rfl := Jump.again.inj (hm.symm.trans hu)
      exact he
  · exact fun he => .loop hm he

/-! ## Bytes without a header -/

/-- From offset `k` on no header stands in the bytes, followed by zeros. -/
def NoHeader (bs : List UInt8) (k : Nat) : Prop :=
  ∀ i, k ≤ i → i < bs.length →
    ¬ (bs.getD i 0 = 0xAA ∧ bs.getD (i + 1) 0 = 0xFA ∧ bs.getD (i + 2) 0 = 0x00 ∧
      bs.getD (i + 3) 0 = 0x00)

/-- The bytes stand at offset `e` of the buffer, and no header goes on behind them. -/
structure Holds (q : Mem) (e : Nat) (bs : List UInt8) : Prop where
  bytes : ∀ k, k < bs.length → q (e + k) = bs.getD k 0
  next : q (e + bs.length) = 0x00 ∨ q (e + bs.length) = 0xAA

theorem holds_received {n : Nat} {chunk : List UInt8} {q : Mem} (h : chunk.length ≤ n) :
    Holds (received n chunk q) 0 chunk where
  bytes k hk := by
    rw [Nat.zero_add]
    exact received_of_lt hk
  next := by
    rw [Nat.zero_add, received_of_ge (Nat.le_refl _), if_pos h]
    exact Or.inl rfl

theorem Holds.not_headerAt {q : Mem} {e k : Nat} {bs : List UInt8} {s : App} (hh : HandleOk s)
    (hq : Holds q e bs) (hn : NoHeader bs k) (hk : k < bs.length) :
    ¬ headerAt (s.placed q (e + k)) := by
  rw [headerAt_iff (s := s.placed q (e + k)) hh]
  rintro ⟨h0, h1, h2, h3⟩
  have hbyte : ∀ j, (s.placed q (e + k)).rx.byteAt j = q (e + (k + j)) := by
    intro j
    show q (j + (e + k)) = _
    congr 1
    omega
  rw [hbyte] at h0 h1 h2 h3
  -- a byte behind the end is 0, when the header has got that far
  have hlast : q (e + bs.length) ≠ 0xFA := by
    rcases hq.next with h | h <;> rw [h] <;> decide
  have h0' := hq.bytes k hk
  have hk1 : k + 1 < bs.length := by
    by_contra hge
    have heq : k + 1 = bs.length := by omega
    rw [heq] at h1
    exact hlast h1
  have h1' := hq.bytes (k + 1) hk1
  refine hn k (Nat.le_refl k) hk ⟨h0'.symm.trans h0, h1'.symm.trans h1, ?_, ?_⟩
  · by_cases hk2 : k + 2 < bs.length
    · exact (hq.bytes _ hk2).symm.trans h2
    · rw [List.getD_eq_getElem?_getD, List.getElem?_eq_none (by omega)]
      rfl
  · by_cases hk3 : k + 3 < bs.length
    · exact (hq.bytes _ hk3).symm.trans h3
    · rw [List.getD_eq_getElem?_getD, List.getElem?_eq_none (by omega)]
      rfl

/-- Without a header the cursor goes on by one. -/
theorem isCmd_of_no_header {ret : Nat} {s : App} (hlt : s.rx.handleDeviation < ret)
    (hh : ¬ headerAt s) :
    isCmd ret s = .again { s with rx.handleDeviation := s.rx.handleDeviation + 1 } := by
  unfold isCmd
  rw [if_pos hlt, if_neg hh]

/-- At the end of the chunk the loop is left. -/
theorem isCmd_of_ge {ret : Nat} {s : App} (h : ret ≤ s.rx.handleDeviation) :
    isCmd ret s = .leave s :=
  if_neg (Nat.not_lt.mpr h)

/-- Bytes without a header are passed over. -/
theorem Holds.visits {q : Mem} {e ret : Nat} {bs : List UInt8} {s : App} (hh : HandleOk s)
    (hq : Holds q e bs) (hret : e + bs.length ≤ ret) :
    ∀ {k : Nat}, k ≤ bs.length → NoHeader bs k →
      Visits (isCmd ret) (s.placed q (e + k)) (s.placed q (e + bs.length)) := by
  suffices H : ∀ m k, k + m = bs.length → NoHeader bs k →
      Visits (isCmd ret) (s.placed q (e + k)) (s.placed q (e + bs.length)) from
    fun {k} hk hn => H (bs.length - k) k (by omega) hn
  intro m
  induction m with
  | zero =>
      intro k hk _
      rw [show e + k = e + bs.length by omega]
      exact .refl
  | succ m ih =>
      intro k hk hn
      have hstep := isCmd_of_no_header (s := s.placed q (e + k))
        (show e + k < ret by omega) (hq.not_headerAt hh hn (by omega))
      exact Visits.head hstep (ih (k + 1) (by omega) fun i hi => hn i (by omega))

/-- A chunk without a header has no effect. -/
theorem handled_noHeader {n : Nat} {chunk : List UInt8} {s : App} (hh : HandleOk s)
    (hc : 1 ≤ chunk.length) (hle : chunk.length ≤ n) (hs : s.rx.currentDataLengthSave = 0)
    (hn : NoHeader chunk 0) :
    Handles122 n chunk s (s.placed (received n chunk s.rx.pRecv) chunk.length) := by
  refine (handles122_fresh hc hs).mpr
    (Ends.of_visits ?_ (.leave (isCmd_of_ge (Nat.le_refl chunk.length))))
  have hq : Holds (received n chunk s.rx.pRecv) 0 chunk := holds_received hle
  have hv : Visits (isCmd chunk.length) _ _ := hq.visits hh (by omega) (Nat.zero_le _) hn
  rw [Nat.zero_add, Nat.zero_add] at hv
  exact hv

/-! ## A frame at the cursor -/

/-- The frame alone at the start of the buffer, followed by zeros. -/
def Frame.alone (f : Frame) (s : App) : App := s.placed (Mem.ofList f.bytes) 0

theorem SocketInstruction.code_lt (c : SocketInstruction) : c.code < 256 := by
  cases c <;> decide

theorem Frame.cmdAt_alone (f : Frame) (s : App) : cmdAt (f.alone s) = f.cmd.code := by
  show (UInt8.ofNat f.cmd.code).toNat = f.cmd.code
  rw [UInt8.toNat_ofNat']
  exact Nat.mod_eq_of_lt f.cmd.code_lt

theorem Frame.lenAt_alone (f : Frame) (s : App) : lenAt (f.alone s) = f.payload.length := by
  have hlen := f.length_lt
  show (UInt8.ofNat (f.payload.length / 256)).toNat * 256 +
    (UInt8.ofNat (f.payload.length % 256)).toNat = f.payload.length
  rw [UInt8.toNat_ofNat', UInt8.toNat_ofNat']
  omega

theorem Frame.headerAt_alone {f : Frame} {s : App} (hh : HandleOk s) : headerAt (f.alone s) :=
  (headerAt_iff (s := f.alone s) hh).mpr ⟨rfl, rfl, rfl, rfl⟩

theorem Frame.caseAt_alone (f : Frame) (s : App) :
    caseAt (f.alone s) = if f.cmd.hasCase then some f.cmd else none := by
  unfold caseAt
  rw [f.cmdAt_alone, SocketInstruction.ofCode_eq_some.mpr rfl]

/-- The voice of a complete frame is complete. -/
theorem Frame.voiceWhole (f : Frame) (s : App) :
    VoiceWhole 8 f.bytes.length (readHeader (f.alone s)) := by
  unfold VoiceWhole
  rw [show (readHeader (f.alone s)).rx.currentDataLength = f.payload.length from f.lenAt_alone s,
    show (readHeader (f.alone s)).rx.handleDeviation = 0 from rfl, f.length_bytes]
  simp [sub32]

theorem Frame.broadcastWhole {f : Frame} (h : f.cmd = .instruction34) (s : App) :
    VoiceWhole 10 f.bytes.length (setLength 80 (f.alone s)) := by
  unfold VoiceWhole
  rw [show (setLength 80 (f.alone s)).rx.currentDataLength = 80 from rfl,
    show (setLength 80 (f.alone s)).rx.handleDeviation = 0 from rfl, f.length_bytes,
    f.broadcast h]
  decide

/-- A frame in a chunk does what it does alone, as far as it reads the same: with `m`
bytes of it there, at offset `e` of a chunk of `ret` bytes. -/
theorem Frame.isCmd_placed {f : Frame} {s : App} {m ret e : Nat} {q : Mem} (hh : HandleOk s)
    (hm : m < 65536) (hin : FrameInside m (f.alone s))
    (hq : ∀ k, k < m → q (e + k) = f.bytes.getD k 0) (hlt : e < ret)
    (hreset : Resets (f.alone s) → e = 0) (hv : SameVoiceAt m ret 0 e q (f.alone s)) :
    isCmd ret (s.placed q e) = (isCmd m (f.alone s)).map (App.move q 0 e) := by
  have h8 := eight_le_frameNeeds (f.alone s)
  have hf := hin.fields
  have hcur : (f.alone s).rx.handleDeviation = 0 := rfl
  rw [hcur] at hf
  have hbyte : ∀ k, (f.alone s).rx.byteAt k = f.bytes.getD k 0 := fun k => rfl
  have hplaced : (f.alone s).move q 0 e = s.placed q e := by
    rw [Frame.alone, move_placed, Nat.zero_add]
  have hbyte' : ∀ k, k < m → (s.placed q e).rx.byteAt k = f.bytes.getD k 0 := by
    intro k hk
    rw [← hq k hk, Nat.add_comm e k]
    rfl
  have hhead : headerAt (s.placed q e) := by
    refine (headerAt_iff (s := s.placed q e) hh).mpr ⟨?_, ?_, ?_, ?_⟩
    · rw [hbyte' 0 (by omega)]
      rfl
    · rw [hbyte' 1 (by omega)]
      rfl
    · rw [hbyte' 2 (by omega)]
      rfl
    · rw [hbyte' 3 (by omega)]
      rfl
  have hd := dispatch_move (q := q) (d := 0) (e := e) (Frame.headerAt_alone hh) rfl
    (fun k hk => by
      have := frameReads_lt hm (by omega) hin hk
      rw [hplaced, hbyte, hbyte' k (by omega)])
    (fun i hi => by
      have hi' := frameAbsReads_lt hin hi
      obtain ⟨c, hc, rfl, hr, -⟩ := hi
      have he := hreset ⟨Frame.headerAt_alone hh, Or.inr ⟨(caseAt_eq_some.mp hc).1, hr⟩⟩
      have := hq i hi'
      rw [he, Nat.zero_add] at this
      exact this)
    (fun hr => (hreset hr).symm) hv
  rw [hplaced] at hd
  unfold isCmd
  rw [if_pos (show (s.placed q e).rx.handleDeviation < ret from hlt), if_pos hhead, hd,
    if_pos (show (f.alone s).rx.handleDeviation < m by omega), if_pos (Frame.headerAt_alone hh)]

/-- A case with its voice complete jumps back, with nothing saved. -/
theorem caseOf_whole {ret : Nat} {c : SocketInstruction} {s : App} (hcase : c.hasCase = true)
    (hsave : s.rx.currentDataLengthSave = 0)
    (h10 : c = .instruction10 → VoiceWhole 8 ret s)
    (h34 : c = .instruction34 → VoiceWhole 10 ret (setLength 80 s)) :
    ∃ w, caseOf ret c s = .again w ∧ w.rx.currentDataLengthSave = 0 := by
  cases c with
  | instruction4 =>
      refine ⟨_, rfl, ?_⟩
      show (dialReqReqCallReturnHander s).rx.currentDataLengthSave = 0
      by_cases hr : dialResets s
      · rw [dial_rx_of_resets hr]
        rfl
      · rw [dial_rx_of_not hr]
        exact hsave
  | instruction5 =>
      refine ⟨_, rfl, ?_⟩
      show (calledReqReqCallReturnHander s).rx.currentDataLengthSave = 0
      by_cases hr : calledResets s
      · rw [called_rx_of_resets hr]
        rfl
      · rw [called_rx_of_not hr]
        exact hsave
  | instruction10 => exact ⟨_, voiceFrame_whole (h10 rfl), hsave⟩
  | instruction2 | instruction12 | instruction21 | instruction29 | instruction32 =>
      exact ⟨_, rfl, hsave⟩
  | instruction34 =>
      have hstop : (broadcastStop (asVoice s)).rx = (asVoice s).rx := broadcastStop_rx _
      have hstart : (broadcastStart (asVoice s)).rx = (asVoice s).rx := broadcastStart_rx _
      have hw : VoiceWhole 10 ret (setLength 80 (broadcastStart (asVoice s))) := by
        refine (voiceWhole_congr (t := setLength 80 (broadcastStart (asVoice s)))
          (s := setLength 80 s) ?_ rfl).mpr (h34 rfl)
        show (broadcastStart (asVoice s)).rx.handleDeviation = _
        rw [hstart]
        rfl
      unfold caseOf broadcastFrame broadcastVoice
      dsimp only
      rw [voiceFrame_whole hw]
      split
      · refine ⟨_, rfl, ?_⟩
        show (broadcastStart (asVoice s)).rx.currentDataLengthSave = 0
        rw [hstart]
        exact hsave
      · refine ⟨_, rfl, ?_⟩
        show (broadcastStop (asVoice s)).rx.currentDataLengthSave = 0
        rw [hstop]
        exact hsave
  | _ => exact absurd hcase (by decide)

theorem Frame.spanAt_alone (f : Frame) (s : App) :
    spanAt f.bytes.length (f.alone s) = f.bytes.length := by
  by_cases h34 : f.cmd = .instruction34
  · have hc : cmdAt (f.alone s) = SocketInstruction.instruction34.code := by
      rw [f.cmdAt_alone, h34]
    have hlen := f.broadcast h34
    rw [spanAt_broadcast hc, f.lenAt_alone, show (f.alone s).rx.handleDeviation = 0 from rfl,
      f.length_bytes, hlen]
    split <;> rfl
  · rw [spanAt_of_cmd (f.cmdAt_alone s) h34, f.lenAt_alone, f.length_bytes]

/-- A complete frame, alone: the loop is left, or the cursor stands behind it, or at 8. -/
theorem Frame.isCmd_alone {f : Frame} {s : App} (hh : HandleOk s) (hcase : f.cmd.hasCase = true) :
    ∃ w, isCmd f.bytes.length (f.alone s) = .again w ∧ w.rx.currentDataLengthSave = 0 ∧
      HandleOk w ∧
      (Resets (f.alone s) ∧ w.rx.handleDeviation = 8 ∨
        ¬ Resets (f.alone s) ∧ w.rx.handleDeviation = f.bytes.length) := by
  have hlt : (f.alone s).rx.handleDeviation < f.bytes.length := by
    rw [f.length_bytes]
    exact Nat.succ_pos _
  have hc : caseAt (f.alone s) = some f.cmd := by rw [f.caseAt_alone, if_pos hcase]
  obtain ⟨w, hw, hsave⟩ : ∃ w, caseOf f.bytes.length f.cmd (opened f.cmd (f.alone s)) = .again w ∧
      w.rx.currentDataLengthSave = 0 :=
    caseOf_whole hcase rfl (fun _ => f.voiceWhole s) (fun h => f.broadcastWhole h s)
  have hpass : isCmd f.bytes.length (f.alone s) = .again w := by
    rw [isCmd, if_pos hlt, if_pos (Frame.headerAt_alone hh), dispatch_some hc, hw]
  have hside := isCmd_recvSide f.bytes.length (f.alone s)
  rw [hpass] at hside
  refine ⟨w, hpass, hsave, .of_head hside.head hh, ?_⟩
  obtain ⟨-, ⟨hnh, -⟩ | hr | ⟨-, hnr, hd⟩⟩ := isCmd_again hpass
  · exact absurd (Frame.headerAt_alone hh) hnh
  · exact Or.inl hr
  · refine Or.inr ⟨hnr, ?_⟩
    rw [hd, f.spanAt_alone, show (f.alone s).rx.handleDeviation = 0 from rfl, Nat.zero_add]

/-- A command without a case leaves the loop. -/
theorem Frame.isCmd_alone_noCase {f : Frame} {s : App} (hh : HandleOk s)
    (hcase : f.cmd.hasCase = false) (ret : Nat) (hret : 0 < ret) :
    isCmd ret (f.alone s) = .leave (readHeader (f.alone s)) := by
  have hc : caseAt (f.alone s) = none := by
    rw [f.caseAt_alone, if_neg (by rw [hcase]; exact Bool.false_ne_true)]
  rw [isCmd, if_pos (show (f.alone s).rx.handleDeviation < ret from hret),
    if_pos (Frame.headerAt_alone hh), dispatch_none hc]

theorem Frame.sameVoice (f : Frame) {s : App} {ret e : Nat} {q : Mem}
    (hret : e + f.bytes.length ≤ ret) : SameVoiceAt f.bytes.length ret 0 e q (f.alone s) := by
  have hsub : ∀ n, n ≤ f.bytes.length →
      f.bytes.length - n ≤ sub32 (sub32 ret n) ((f.alone s).move q 0 e).rx.handleDeviation := by
    intro n hn
    rw [show ((f.alone s).move q 0 e).rx.handleDeviation = e from Nat.zero_add e,
      sub32_of_le (a := ret) (b := n) (by omega), sub32_of_le (by omega)]
    omega
  have hlen := f.length_bytes
  refine ⟨fun _ => Or.inr ⟨f.voiceWhole s, ?_⟩, fun hc _ => ?_⟩
  · have := hsub 8 (by omega)
    show lenAt (f.alone s) ≤ _
    rw [f.lenAt_alone]
    exact Nat.le_trans (by omega) this
  · have h34 : f.cmd = .instruction34 :=
      SocketInstruction.code_injective ((f.cmdAt_alone s).symm.trans hc)
    refine Or.inr ⟨f.broadcastWhole h34 s, ?_⟩
    have hb := f.broadcast h34
    have := hsub 10 (by omega)
    show 80 ≤ _
    exact Nat.le_trans (by omega) this

/-- **A complete frame in a chunk**: there is one state `w`, whatever the chunk, with
which the cursor comes to stand behind it. -/
theorem Frame.visits {f : Frame} {s : App} (hh : HandleOk s) (hcase : f.cmd.hasCase = true)
    (hlen : f.bytes.length < 65536) (hin : FrameInside f.bytes.length (f.alone s))
    (hscan : Resets (f.alone s) → NoHeader f.bytes 8) :
    ∃ w, w.rx.currentDataLengthSave = 0 ∧ HandleOk w ∧
      ∀ q e ret, Holds q e f.bytes → e + f.bytes.length ≤ ret → (Resets (f.alone s) → e = 0) →
        Visits (isCmd ret) (s.placed q e) (w.placed q (e + f.bytes.length)) := by
  obtain ⟨w, hpass, hsave, hhw, hcur⟩ := Frame.isCmd_alone hh hcase
  have h8 := f.length_bytes
  refine ⟨w, hsave, hhw, fun q e ret hq hret hreset => ?_⟩
  have hp := Frame.isCmd_placed hh hlen hin hq.bytes (by omega) hreset (f.sameVoice hret)
  rw [hpass] at hp
  have hmove : w.move q 0 e = w.placed q (w.rx.handleDeviation + e) := rfl
  rw [Jump.map_again, hmove] at hp
  refine Visits.head hp ?_
  rcases hcur with ⟨hr, h8⟩ | ⟨-, hd⟩
  · obtain rfl := hreset hr
    rw [h8]
    have hv := hq.visits hhw hret (k := 8) (by omega) (hscan hr)
    rw [Nat.zero_add 8] at hv
    exact hv
  · rw [hd, Nat.add_comm]
    exact .refl

/-! ## Voice in pieces -/

theorem fillAudio_eq {pdat : Mem} {lines : Nat} {p : Play} (hp : p.playDataNum < playDataMax)
    (h : 2 ≤ lines) :
    fillAudio pdat lines p =
      { p with
        playData := Mem.ringStore playDataMax p.playData p.playDataNum pdat lines
        playDataNum := Mem.ringWrap playDataMax (p.playDataNum + lines)
        playDataEn := p.playDataEn + (p.playDataNew + lines) / 80
        playDataNew := (p.playDataNew + lines) % 80
        heard := p.heard ++ pdat.slice 0 lines } := by
  unfold fillAudio
  rw [if_neg (by omega)]
  have hdata :
      (if playDataMax < p.playDataNum + lines then
        (p.playData.memcpy p.playDataNum pdat (sub32 playDataMax p.playDataNum)).memcpy 0
          (pdat.ptr (sub32 playDataMax p.playDataNum))
          (sub32 lines (sub32 playDataMax p.playDataNum))
      else p.playData.memcpy p.playDataNum pdat lines) =
        Mem.ringStore playDataMax p.playData p.playDataNum pdat lines := by
    unfold Mem.ringStore
    split
    · rw [sub32_of_le (Nat.le_of_lt hp), sub32_of_le (by omega)]
    · rfl
  have hen : (if 80 ≤ p.playDataNew + lines then p.playDataEn + (p.playDataNew + lines) / 80
      else p.playDataEn) = p.playDataEn + (p.playDataNew + lines) / 80 := by
    split <;> omega
  have hnew : (if 80 ≤ p.playDataNew + lines then (p.playDataNew + lines) % 80
      else p.playDataNew + lines) = (p.playDataNew + lines) % 80 := by
    split <;> omega
  simp only [hdata, hen, hnew, Mem.ringWrap]

/-- The position stays in the ring. -/
theorem fillAudio_lt {pdat : Mem} {lines : Nat} {p : Play} (hp : p.playDataNum < playDataMax)
    (h : lines ≤ playDataMax) : (fillAudio pdat lines p).playDataNum < playDataMax := by
  by_cases h2 : 2 ≤ lines
  · rw [fillAudio_eq hp h2]
    exact Mem.ringWrap_lt (by omega)
  · rw [fillAudio, if_pos (by omega)]
    exact hp

/-- **Two pieces of voice are stored as one**, unless one of them is a single byte. -/
theorem fillAudio_add {pdat : Mem} {a b : Nat} {p : Play} (hp : p.playDataNum < playDataMax)
    (ha : 2 ≤ a) (hb : 2 ≤ b) (hab : a + b ≤ playDataMax) :
    fillAudio (pdat.ptr a) b (fillAudio pdat a p) = fillAudio pdat (a + b) p := by
  have hlt : (fillAudio pdat a p).playDataNum < playDataMax := fillAudio_lt hp (by omega)
  rw [fillAudio_eq hlt hb, fillAudio_eq hp ha, fillAudio_eq hp (by omega)]
  dsimp only
  congr 1
  · exact Mem.ringStore_add _ _ hp hab
  · unfold Mem.ringWrap playDataMax at *
    split <;> split <;> split <;> omega
  · omega
  · omega
  · have hrest : (pdat.ptr a).slice 0 b = pdat.slice (0 + a) b := Mem.slice_congr fun k _ => by
      rw [Mem.ptr_apply]
      congr 1
      omega
    rw [List.append_assoc, Mem.slice_add, hrest]

end IntercomSalve
