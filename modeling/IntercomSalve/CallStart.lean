/-
# `CallStart` — what a call inherits from the calls before

`MSG_EVT_HMI_NEWS` resets seven variables of the two rings, and with that the bytes of
earlier calls are out of reach: whatever is stored and played afterwards, two devices decode
the same bytes (`SameRing`).  It does not reset the `static` variables of `ADPCM_Encode` and
`ADPCM_Decode`, and the codec forgets nothing: two states that differ are told apart by the
first sample already.  So a call sounds the same after two histories exactly if these have
left both codecs in the same states (`callStart_iff`).
-/
import IntercomSalve.Microphone
import IntercomSalve.VoicePath

namespace IntercomSalve

/-! ## After the start -/

/-- What the playing side does in a call. -/
inductive SoundOp where
  | fill (pdat : Mem) (lines : Nat)
  | playCb

/-- One operation: the samples delivered, and the globals after it. -/
def SoundOp.run : SoundOp → App → List Int × App
  | .fill pdat lines, s => ([], { s with play := fillAudio pdat lines s.play })
  | .playCb, s => audioPlayCb s

/-- The samples that a sequence of operations delivers, one by one. -/
def playSamples : List SoundOp → App → List (List Int)
  | [], _ => []
  | op :: ops, s => (op.run s).1 :: playSamples ops (op.run s).2

/-- The packets that a sequence of frames is stored as. -/
def recordPackets : List Mem → App → List (List UInt8)
  | [], _ => []
  | buff :: buffs, s =>
      (audioRecordCb buff 320 s).record.audioData.slice s.record.audioDataNum 80 ::
        recordPackets buffs (audioRecordCb buff 320 s)

/-- Every sequence of stores and callbacks delivers the same samples, and every sequence of
frames is stored as the same packets. -/
def SoundsSame (s t : App) : Prop :=
  (∀ ops, playSamples ops s = playSamples ops t) ∧
    ∀ buffs, recordPackets buffs s = recordPackets buffs t

/-! ## The playing side -/

/-- The rings of two devices: the same counters, and the same bytes wherever they have been
stored since the start of the call; after the first round that is everywhere. -/
structure SameRing (p p' : Play) : Prop where
  num : p'.playDataNum = p.playDataNum
  new : p'.playDataNew = p.playDataNew
  en : p'.playDataEn = p.playDataEn
  play : p'.audioDataPlay = p.audioDataPlay
  whole : p.audioDataPlay % 80 = 0
  inside : p.audioDataPlay < playDataMax
  data : (∀ j < playDataMax, p'.playData j = p.playData j) ∨
    (∀ j < p.playDataNum, p'.playData j = p.playData j) ∧ p.playDataNum < playDataMax ∧
      p.audioDataPlay + 80 * p.playDataEn + p.playDataNew = p.playDataNum

/-- Copying the same bytes keeps what is the same, and makes the same what it writes. -/
theorem memcpy_same {m m' src : Mem} {i n j : Nat}
    (h : m' j = m j ∨ i ≤ j ∧ j < i + n) : m'.memcpy i src n j = m.memcpy i src n j := by
  unfold Mem.memcpy
  by_cases hj : i ≤ j ∧ j < i + n
  · rw [if_pos hj, if_pos hj]
  · rw [if_neg hj, if_neg hj]
    exact h.resolve_right hj

/-- The copies of `fill_audio`, at position `num`. -/
def fillCopy (pdat : Mem) (lines num : Nat) (m : Mem) : Mem :=
  if playDataMax < num + lines then
    (m.memcpy num pdat (sub32 playDataMax num)).memcpy 0 (pdat.ptr (sub32 playDataMax num))
      (sub32 lines (sub32 playDataMax num))
  else m.memcpy num pdat lines

theorem fillCopy_same {m m' pdat : Mem} {lines num j : Nat}
    (h : m' j = m j ∨ num ≤ j ∧ j < num + lines ∧ j < playDataMax) :
    fillCopy pdat lines num m' j = fillCopy pdat lines num m j := by
  unfold fillCopy
  split
  · refine memcpy_same (Or.inl (memcpy_same (h.imp_right ?_)))
    rintro ⟨h1, -, h2⟩
    rw [sub32_of_le (by omega)]
    omega
  · exact memcpy_same (h.imp_right fun hj => ⟨hj.1, hj.2.1⟩)

/-- `fill_audio` with the same bytes. -/
theorem SameRing.fill {p p' : Play} (h : SameRing p p') (pdat : Mem) (lines : Nat) :
    SameRing (fillAudio pdat lines p) (fillAudio pdat lines p') := by
  by_cases hlines : lines ≤ 1
  · unfold fillAudio
    rw [if_pos hlines, if_pos hlines]
    exact h
  · have hfill : ∀ p : Play, fillAudio pdat lines p =
        { p with
          playData := fillCopy pdat lines p.playDataNum p.playData
          playDataNum :=
            if playDataMax ≤ p.playDataNum + lines then p.playDataNum + lines - playDataMax
            else p.playDataNum + lines
          playDataEn :=
            if 80 ≤ p.playDataNew + lines then p.playDataEn + (p.playDataNew + lines) / 80
            else p.playDataEn
          playDataNew :=
            if 80 ≤ p.playDataNew + lines then (p.playDataNew + lines) % 80
            else p.playDataNew + lines
          heard := p.heard ++ pdat.slice 0 lines } := fun p => if_neg hlines
    rw [hfill, hfill, h.num, h.new, h.en]
    refine ⟨rfl, rfl, rfl, h.play, h.whole, h.inside, ?_⟩
    dsimp only
    rcases h.data with hall | ⟨hlow, hnum, hcount⟩
    · exact Or.inl fun j hj => fillCopy_same (Or.inl (hall j hj))
    · by_cases hround : playDataMax ≤ p.playDataNum + lines
      · -- the first round is full
        refine Or.inl fun j hj => fillCopy_same ?_
        rcases Nat.lt_or_ge j p.playDataNum with hlt | hge
        · exact Or.inl (hlow j hlt)
        · exact Or.inr ⟨hge, by omega, hj⟩
      · rw [if_neg hround]
        refine Or.inr ⟨fun j hj => fillCopy_same ?_, by omega, ?_⟩
        · rcases Nat.lt_or_ge j p.playDataNum with hlt | hge
          · exact Or.inl (hlow j hlt)
          · exact Or.inr ⟨hge, hj, by omega⟩
        · split <;> omega

/-- `AudioPlayCb`: the same samples, where the decoders agree. -/
theorem SameRing.playCb {s t : App} (h : SameRing s.play t.play) (hd : t.decode = s.decode) :
    (audioPlayCb t).1 = (audioPlayCb s).1 ∧ (audioPlayCb t).2.decode = (audioPlayCb s).2.decode ∧
      SameRing (audioPlayCb s).2.play (audioPlayCb t).2.play := by
  unfold audioPlayCb
  rw [h.en]
  by_cases hen : s.play.playDataEn = 0
  · rw [if_pos hen, if_pos hen]
    exact ⟨rfl, hd, h⟩
  · rw [if_neg hen, if_neg hen]
    have hinside := h.inside
    have hwhole := h.whole
    have hslice : t.play.playData.slice t.play.audioDataPlay 80 =
        s.play.playData.slice s.play.audioDataPlay 80 := by
      rw [h.play]
      refine Mem.slice_congr fun k hk => ?_
      rcases h.data with hall | ⟨hlow, hnum, hcount⟩
      · exact hall _ (by unfold playDataMax at *; omega)
      · exact hlow _ (by omega)
    dsimp only
    rw [decodePacket_eq, decodePacket_eq, hslice, hd, h.play]
    refine ⟨rfl, rfl, h.num, h.new, rfl, rfl, ?_, ?_, ?_⟩
    · dsimp only
      unfold playDataEnMax playDataMax at *
      split <;> omega
    · dsimp only
      unfold playDataEnMax playDataMax at *
      split <;> omega
    · refine h.data.imp_right ?_
      rintro ⟨hlow, hnum, hcount⟩
      refine ⟨hlow, hnum, ?_⟩
      dsimp only
      unfold playDataEnMax playDataMax at *
      split <;> omega

/-- **The playing side**: where rings and decoders agree, every sequence of operations delivers
the same samples. -/
theorem SameRing.playSamples_eq {s t : App} (h : SameRing s.play t.play)
    (hd : t.decode = s.decode) (ops : List SoundOp) : playSamples ops s = playSamples ops t := by
  induction ops generalizing s t with
  | nil => rfl
  | cons op ops ih =>
      cases op with
      | fill pdat lines => exact congrArg (([] : List Int) :: ·) (ih (h.fill pdat lines) hd)
      | playCb =>
          obtain ⟨hpcm, hdecode, hring⟩ := h.playCb hd
          exact congrArg₂ List.cons hpcm.symm (ih hring hdecode)

/-! ## The recording side -/

/-- The packets of a sequence of frames. -/
def packetsOf : List Mem → Adpcm → List (List UInt8)
  | [], _ => []
  | buff :: buffs, st =>
      packetOf buff st :: packetsOf buffs (encodeBytes (samplePairs buff 0 80) st).2

/-- **The recording side**: what is stored depends on the encoder and the frames only. -/
theorem recordPackets_eq {s : App} (h : Recording s) (buffs : List Mem) :
    recordPackets buffs s = packetsOf buffs s.encode := by
  induction buffs generalizing s with
  | nil => rfl
  | cons buff buffs ih =>
      have hbytes := Mem.slice_ofList (packetOf buff s.encode)
      rw [length_packetOf] at hbytes
      have hstored : (audioRecordCb buff 320 s).record.audioData.slice s.record.audioDataNum 80 =
          packetOf buff s.encode := by
        rw [audioRecordCb_frame h]
        exact (Mem.slice_memcpy _ _ _ _).trans hbytes
      have hin : Recording (audioRecordCb buff 320 s) := by
        rw [audioRecordCb_frame h]
        exact ⟨h.single, h.connected, h.inCall⟩
      have hencode : (audioRecordCb buff 320 s).encode =
          (encodeBytes (samplePairs buff 0 80) s.encode).2 := by
        rw [audioRecordCb_frame h]
        rfl
      unfold recordPackets packetsOf
      rw [hstored, ih hin, hencode]

/-- A frame whose first sample is `x`. -/
def frameFrom (x : Int) : Mem := fun k =>
  if k = 0 then UInt8.ofNat (x % 65536 % 256).toNat else UInt8.ofNat (x % 65536 / 256).toNat

theorem shortAt_frameFrom {x : Int} (h1 : -32768 ≤ x) (h2 : x ≤ 32767) :
    shortAt (frameFrom x) 0 = x := by
  have hlow : frameFrom x 0 = UInt8.ofNat (x % 65536 % 256).toNat := rfl
  have hhigh : frameFrom x (0 + 1) = UInt8.ofNat (x % 65536 / 256).toNat := rfl
  unfold shortAt
  rw [hlow, hhigh, UInt8.toNat_ofNat', UInt8.toNat_ofNat']
  dsimp only
  split <;> omega

/-- The first code of a packet. -/
theorem packetOf_head (buff : Mem) (st : Adpcm) :
    (packetOf buff st).head?.map (fun b => b.toNat % 16) =
      some (adpcmEncode (shortAt buff 0) st).1 := by
  have h1 := (adpcmEncode_spec (shortAt buff 0) st).1
  have h2 := (adpcmEncode_spec (shortAt buff 2) (adpcmEncode (shortAt buff 0) st).2).1
  unfold packetOf
  rw [samplePairs_succ]
  exact congrArg some (packCodes_nibbles h1 h2).1

theorem packetOf_injective {st st' : Adpcm} (h : CodecOk st) (h' : CodecOk st')
    (heq : ∀ buff, packetOf buff st = packetOf buff st') : st = st' := by
  refine adpcmEncode_injective h h' fun x h1 h2 => ?_
  have hhead := congrArg (fun bs => bs.head?.map fun b => b.toNat % 16) (heq (frameFrom x))
  rw [packetOf_head, packetOf_head, shortAt_frameFrom h1 h2] at hhead
  exact Option.some.inj hhead

/-! ## Two histories -/

/-- A device that is about to start a call, after some history: `MSG_EVT_HMI_NEWS` is next,
and the device is in the call. -/
structure StartsCall (x : Sys) : Prop where
  reachable : Reachable x
  next : x.app.audioMsgs.head? = some .hmiNews
  recording : Recording x.app

/-- The start: both rings are as empty as they are on every other device. -/
theorem hmiNews_sameRing (s t : App) : SameRing (hmiNews s).play (hmiNews t).play :=
  ⟨rfl, rfl, rfl, rfl, rfl, (by decide : 0 < playDataMax),
    Or.inr ⟨fun j hj => absurd hj (Nat.not_lt_zero j), (by decide : 0 < playDataMax), rfl⟩⟩

theorem StartsCall.started {x y : Sys} {io : Platform} (h : StartsCall x)
    (hs : Steps x (.audio io) y) :
    ∃ ms, x.app.audioMsgs = .hmiNews :: ms ∧ y.app = hmiNews { x.app with audioMsgs := ms } := by
  cases hs with
  | @audio s m ms io hms =>
      have hnext := h.next
      dsimp only at hnext
      rw [hms] at hnext
      obtain rfl := Option.some.inj hnext
      exact ⟨ms, hms, rfl⟩

/-- The first sample of the first packet. -/
theorem playSamples_first (s : App) {code : Nat} (hcode : code < 16) :
    (playSamples [.fill (fun _ => UInt8.ofNat code) 80, .playCb] (hmiNews s)).map List.head? =
      [none, some (adpcmDecode code s.decode).1] := by
  have hring := (PlayOk.hmiNews s).fill (fun _ => UInt8.ofNat code) (show 2 ≤ 80 by decide)
    (by decide)
  have hsamples := (hring.playCb
    (s := { hmiNews s with play := fillAudio (fun _ => UInt8.ofNat code) 80 (hmiNews s).play })
    (by simp [fillAudio, hmiNews, audioStartV2, App.log])).1
  have hbyte : (UInt8.ofNat code).toNat % 16 = code := by
    rw [UInt8.toNat_ofNat']
    omega
  simp only [playSamples, SoundOp.run, hsamples, List.map_cons, List.map_nil, List.head?_nil]
  rw [List.nil_append, Mem.slice_succ, List.take_succ_cons]
  simp only [decodeBytes, List.head?_cons, hbyte]
  rfl

/-- Decoders that deliver the same samples of every first packet are in one state. -/
theorem decode_eq_of_samples {s t : App} (hs : CodecOk s.decode) (ht : CodecOk t.decode)
    (heq : ∀ ops, playSamples ops (hmiNews s) = playSamples ops (hmiNews t)) :
    s.decode = t.decode := by
  refine adpcmDecode_injective hs ht fun code hcode => ?_
  have hops := congrArg (List.map List.head?)
    (heq [.fill (fun _ => UInt8.ofNat code) 80, .playCb])
  rw [playSamples_first s hcode, playSamples_first t hcode] at hops
  simpa using hops

/-- **The start of a call.**  After two histories a call sounds the same, in both directions,
exactly if they have left both codecs in the same states. -/
theorem callStart_iff {x y x' y' : Sys} {io io' : Platform} (hx : StartsCall x)
    (hy : StartsCall y) (hx' : Steps x (.audio io) x') (hy' : Steps y (.audio io') y') :
    SoundsSame x'.app y'.app ↔
      x.app.decode = y.app.decode ∧ x.app.encode = y.app.encode := by
  obtain ⟨ms, -, hstart⟩ := hx.started hx'
  obtain ⟨ms', -, hstart'⟩ := hy.started hy'
  have hin : Recording (hmiNews { x.app with audioMsgs := ms }) :=
    ⟨hx.recording.single, hx.recording.connected, hx.recording.inCall⟩
  have hin' : Recording (hmiNews { y.app with audioMsgs := ms' }) :=
    ⟨hy.recording.single, hy.recording.connected, hy.recording.inCall⟩
  obtain ⟨hencoder, hdecoder⟩ := hx.reachable.codecsOk
  obtain ⟨hencoder', hdecoder'⟩ := hy.reachable.codecsOk
  rw [hstart, hstart']
  constructor
  · rintro ⟨hplay, hrecord⟩
    refine ⟨decode_eq_of_samples (s := { x.app with audioMsgs := ms })
      (t := { y.app with audioMsgs := ms' }) hdecoder hdecoder' hplay, ?_⟩
    refine packetOf_injective hencoder hencoder' fun buff => ?_
    have hone := hrecord [buff]
    rw [recordPackets_eq hin, recordPackets_eq hin'] at hone
    exact (List.cons.inj hone).1
  · rintro ⟨hdecode, hencode⟩
    have hring := hmiNews_sameRing { x.app with audioMsgs := ms } { y.app with audioMsgs := ms' }
    refine ⟨hring.playSamples_eq hdecode.symm, fun buffs => ?_⟩
    rw [recordPackets_eq hin, recordPackets_eq hin']
    exact congrArg (packetsOf buffs) hencode

/-! ## Two pairs of histories -/

/-- What can be evaluated of the state before a start. -/
def startsCallTest (y : Sys) : Bool :=
  decide (y.atIsCmd = none ∧ y.app.audioMsgs.head? = some .hmiNews ∧ Recording y.app)

theorem startsCall_of_test {y : Sys} (hy : Reachable y) (h : startsCallTest y = true)
    (io : Platform) : StartsCall y ∧ ∃ y', Steps y (.audio io) y' := by
  obtain ⟨hpc, hnext, hin⟩ := of_decide_eq_true h
  obtain ⟨s, pc⟩ := y
  obtain rfl : pc = none := hpc
  refine ⟨⟨hy, hnext, hin⟩, ?_⟩
  cases hms : s.audioMsgs with
  | nil =>
      rw [hms] at hnext
      exact nomatch hnext
  | cons m ms => exact ⟨_, .audio hms⟩

/-- Power-on, with the hosts' server connected. -/
def bootActs : List Act := [.socket Platform.connects, .audio Platform.silent]

/-- A call of another, up to `MSG_EVT_HMI_NEWS`. -/
def calledActs : List Act :=
  [.socketEvent (.readInd 25),
    .recv ([0xAA, 0xFA, 0x00, 0x00, 0x01, 0x05, 0x00, 0x11, 0x31, 0x31] ++
      List.replicate 15 0x38)] ++ List.replicate 19 .isCmd ++
    [.mp3 Platform.silent, .audio Platform.silent]

/-- The first call after power-on, our own or of another. -/
theorem firstCalls_callStart :
    ∃ x y x' y' io, StartsCall x ∧ StartsCall y ∧ Steps x (.audio io) x' ∧
      Steps y (.audio io) y' ∧ x.app.call.callUserOperation ≠ y.app.call.callUserOperation ∧
      SoundsSame x'.app y'.app := by
  obtain ⟨l, x, hr, hq⟩ := Runs.of_acts_test (l := bootActs ++ acceptActs.dropLast)
    (q := fun _ y => startsCallTest y && decide (y.app.call.callUserOperation = 3 ∧
      y.app.decode = ⟨0, 0⟩ ∧ y.app.encode = ⟨0, 0⟩)) (by decide +kernel)
  obtain ⟨m, y, hr', hq'⟩ := Runs.of_acts_test (l := bootActs ++ calledActs)
    (q := fun _ y => startsCallTest y && decide (y.app.call.callUserOperation = 5 ∧
      y.app.decode = ⟨0, 0⟩ ∧ y.app.encode = ⟨0, 0⟩)) (by decide +kernel)
  obtain ⟨htest, hstate⟩ := (Bool.and_eq_true _ _).mp hq
  obtain ⟨htest', hstate'⟩ := (Bool.and_eq_true _ _).mp hq'
  obtain ⟨hop, hdecode, hencode⟩ := of_decide_eq_true hstate
  obtain ⟨hop', hdecode', hencode'⟩ := of_decide_eq_true hstate'
  obtain ⟨hx, x', hs⟩ := startsCall_of_test ⟨l, hr⟩ htest Platform.silent
  obtain ⟨hy, y', hs'⟩ := startsCall_of_test ⟨m, hr'⟩ htest' Platform.silent
  refine ⟨x, y, x', y', _, hx, hy, hs, hs', ?_, (callStart_iff hx hy hs hs').mpr ?_⟩
  · rw [hop, hop']
    decide
  · exact ⟨hdecode.trans hdecode'.symm, hencode.trans hencode'.symm⟩

/-- A call in which a packet of loud voice is played, and its end. -/
def loudCallActs : List Act :=
  acceptActs ++ [.socketEvent (.readInd 88),
    .recv ([0xAA, 0xFA, 0x00, 0x00, 0x01, 0x0A, 0x00, 0x50] ++ List.replicate 80 0x77), .isCmd,
    .isCmd, .audioPlayCb, .socketEvent (.readInd 10), .recv hangUpFrame, .isCmd, .isCmd,
    .audio Platform.silent, .audio Platform.silent, .mp3 Platform.silent]

/-- The same call start, first after power-on and then after a loud call. -/
theorem loudCall_not_callStart :
    ∃ x y x' y' io, StartsCall x ∧ StartsCall y ∧ Steps x (.audio io) x' ∧
      Steps y (.audio io) y' ∧ ¬ SoundsSame x'.app y'.app := by
  obtain ⟨l, x, hr, hq⟩ := Runs.of_acts_test (l := bootActs ++ acceptActs.dropLast)
    (q := fun _ y => startsCallTest y && decide ((adpcmDecode 0 y.app.decode).1 = 0))
    (by decide +kernel)
  obtain ⟨m, y, hr', hq'⟩ := Runs.of_acts_test
    (l := bootActs ++ loudCallActs ++ acceptActs.dropLast)
    (q := fun _ y => startsCallTest y && decide ((adpcmDecode 0 y.app.decode).1 = 32767))
    (by decide +kernel)
  obtain ⟨htest, hstate⟩ := (Bool.and_eq_true _ _).mp hq
  obtain ⟨htest', hstate'⟩ := (Bool.and_eq_true _ _).mp hq'
  have hsample := of_decide_eq_true hstate
  have hsample' := of_decide_eq_true hstate'
  obtain ⟨hx, x', hs⟩ := startsCall_of_test ⟨l, hr⟩ htest Platform.silent
  obtain ⟨hy, y', hs'⟩ := startsCall_of_test ⟨m, hr'⟩ htest' Platform.silent
  refine ⟨x, y, x', y', _, hx, hy, hs, hs', fun h => ?_⟩
  obtain ⟨ms, -, hstart⟩ := hx.started hs
  obtain ⟨ms', -, hstart'⟩ := hy.started hs'
  rw [hstart, hstart'] at h
  have hfirst := playSamples_first { x.app with audioMsgs := ms } (show 0 < 16 by decide)
  have hfirst' := playSamples_first { y.app with audioMsgs := ms' } (show 0 < 16 by decide)
  rw [h.1, hfirst', hsample, hsample'] at hfirst
  exact absurd hfirst (by decide)

end IntercomSalve
