/-
# `VoicePath` — from the microphone of one device to the loudspeaker of another

`AudioRecordCb` encodes a frame into the sender's ring, message 125 sends a packet of it,
`fill_audio` stores the packet in the peer's ring and `AudioPlayCb` decodes it.  Between the
two codecs there are two rings and the network, and all three are queues: what is encoded and
not yet decoded is what stands in the peer's ring, on the way, and in the sender's ring, in
this order (`PathOk`).  A decoder that starts in the encoder's state then goes through the
encoder's states, one sample after the other (`voicePath_follows`).
-/
import IntercomSalve.PlayRing
import IntercomSalve.SendRing

namespace IntercomSalve

/-! ## The codecs, sample by sample -/

/-- The codes of recorded samples, each with the state the encoder is then in. -/
def encoderTrace : List (Int × Int) → Adpcm → List (Nat × Adpcm)
  | [], _ => []
  | x :: xs, st =>
      let a := adpcmEncode x.1 st
      let c := adpcmEncode x.2 a.2
      a :: c :: encoderTrace xs c.2

/-- The codes in bytes, low nibble first, each with the state the decoder is then in. -/
def decoderTrace : List UInt8 → Adpcm → List (Nat × Adpcm)
  | [], _ => []
  | b :: bs, st =>
      let a := adpcmDecode (b.toNat % 16) st
      let c := adpcmDecode (b.toNat / 16) a.2
      (b.toNat % 16, a.2) :: (b.toNat / 16, c.2) :: decoderTrace bs c.2

/-- The state after the codes `t`, from `st` on. -/
def lastState (st : Adpcm) (t : List (Nat × Adpcm)) : Adpcm := (t.getLast?.map Prod.snd).getD st

theorem lastState_append (st : Adpcm) (t u : List (Nat × Adpcm)) :
    lastState st (t ++ u) = lastState (lastState st t) u := by
  unfold lastState
  rw [List.getLast?_append]
  cases u.getLast? <;> rfl

theorem lastState_cons (st : Adpcm) (p : Nat × Adpcm) (t : List (Nat × Adpcm)) :
    lastState st (p :: t) = lastState p.2 t :=
  lastState_append st [p] t

/-- A code is a nibble, and the state it leads to is in range. -/
def CodeOk (p : Nat × Adpcm) : Prop := p.1 < 16 ∧ CodecOk p.2

theorem decoderTrace_append (bs cs : List UInt8) (st : Adpcm) :
    decoderTrace (bs ++ cs) st =
      decoderTrace bs st ++ decoderTrace cs (decodeBytes bs st).2 := by
  induction bs generalizing st with
  | nil => rfl
  | cons b bs ih => simp only [List.cons_append, decoderTrace, decodeBytes, ih]

theorem decoderTrace_length (bs : List UInt8) (st : Adpcm) :
    (decoderTrace bs st).length = 2 * bs.length := by
  induction bs generalizing st with
  | nil => rfl
  | cons b bs ih =>
      simp only [decoderTrace, List.length_cons, ih]
      omega

theorem decoderTrace_ok (bs : List UInt8) (st : Adpcm) : ∀ p ∈ decoderTrace bs st, CodeOk p := by
  induction bs generalizing st with
  | nil => exact fun p hp => absurd hp List.not_mem_nil
  | cons b bs ih =>
      have hlow : b.toNat % 16 < 16 := Nat.mod_lt _ (by decide)
      have hhigh : b.toNat / 16 < 16 := by
        have hb := b.toNat_lt
        omega
      simp only [decoderTrace, List.forall_mem_cons]
      exact ⟨⟨hlow, adpcmDecode_ok _ _⟩, ⟨hhigh, adpcmDecode_ok _ _⟩, ih _⟩

/-- The samples of a packet are the values of `predsample` on the way. -/
theorem decodeBytes_samples (bs : List UInt8) (st : Adpcm) :
    (decodeBytes bs st).1 = (decoderTrace bs st).map fun p => p.2.predsample := by
  induction bs generalizing st with
  | nil => rfl
  | cons b bs ih =>
      simp only [decodeBytes, decoderTrace, List.map_cons, ih, adpcmDecode_eq]

theorem decodeBytes_state (bs : List UInt8) (st : Adpcm) :
    (decodeBytes bs st).2 = lastState st (decoderTrace bs st) := by
  induction bs generalizing st with
  | nil => rfl
  | cons b bs ih =>
      simp only [decodeBytes, decoderTrace, lastState_cons]
      exact ih _

/-- **The decoder goes through the states of the encoder**, code by code. -/
theorem decoderTrace_encodeBytes (xs : List (Int × Int)) (st : Adpcm) :
    decoderTrace (encodeBytes xs st).1 st = encoderTrace xs st := by
  induction xs generalizing st with
  | nil => rfl
  | cons x xs ih =>
      obtain ⟨h1, h2⟩ := packCodes_nibbles (adpcmEncode_spec x.1 st).1
        (adpcmEncode_spec x.2 (adpcmEncode x.1 st).2).1
      simp only [encodeBytes, decoderTrace, encoderTrace, h1, h2, adpcmDecode_encode, ih]

/-! ## Every reachable codec is in range -/

theorem recordLoop_ok (buff : Mem) (num n a b : Nat) (data : Mem) {st : Adpcm} (h : CodecOk st) :
    CodecOk (recordLoop buff num n a b data st).2 := by
  induction n generalizing a b data st with
  | zero => exact h
  | succ n ih =>
      unfold recordLoop
      dsimp only
      split
      · exact ih _ _ _ (adpcmEncode_ok _ _)
      · exact ih _ _ _ (adpcmEncode_ok _ _)

theorem decodePacket_ok (data : Mem) (i n : Nat) {st : Adpcm} (h : CodecOk st) :
    CodecOk (decodePacket data i n st).2 := by
  induction n generalizing i st with
  | zero => exact h
  | succ n ih => exact ih _ (adpcmDecode_ok _ _)

theorem audioRecordCb_ok (buff : Mem) (len : Nat) {s : App} (h : CodecOk s.encode) :
    CodecOk (audioRecordCb buff len s).encode := by
  unfold audioRecordCb
  split
  · exact h
  · split
    · unfold audioStopV2
      split <;> exact h
    · exact recordLoop_ok _ _ _ _ _ _ h

theorem audioPlayCb_ok {s : App} (h : CodecOk s.decode) : CodecOk (audioPlayCb s).2.decode := by
  unfold audioPlayCb
  split
  · exact h
  · exact decodePacket_ok _ _ _ h

/-- Both codecs are in range. -/
def CodecsOk (s : App) : Prop := CodecOk s.encode ∧ CodecOk s.decode

theorem Steps.codecsOk {x y : Sys} {a : Act} (h : Steps x a y) (hx : HandleOk x.app)
    (hc : CodecsOk x.app) : CodecsOk y.app := by
  have hw := h.wires_eq hx
  have hencode : y.app.encode = (wiresAfter a x).encode := congrArg Wires.encode hw
  have hdecode : y.app.decode = (wiresAfter a x).decode := congrArg Wires.decode hw
  have hafter : ∀ (e : Effect) (w : Wires), (e.after w).encode = w.encode ∧
      (e.after w).decode = w.decode := by
    intro e w
    unfold Effect.after
    split <;> exact ⟨rfl, rfl⟩
  unfold CodecsOk
  rw [hencode, hdecode]
  cases a with
  | isCmd =>
      simp only [wiresAfter, (hafter _ _).1, (hafter _ _).2]
      exact hc
  | socket io =>
      simp only [wiresAfter, (hafter _ _).1, (hafter _ _).2]
      exact hc
  | audio io =>
      simp only [wiresAfter]
      split
      · next m ms hm => cases m <;> exact hc
      · exact hc
  | audioRecordCb buff len =>
      exact ⟨audioRecordCb_ok buff len hc.1, hc.2⟩
  | audioPlayCb =>
      exact ⟨hc.1, audioPlayCb_ok hc.2⟩
  | _ => exact hc

theorem Reachable.codecsOk {x : Sys} (h : Reachable x) : CodecsOk x.app := by
  have hboth : HandleOk x.app ∧ CodecsOk x.app :=
    h.invariant (I := fun x => HandleOk x.app ∧ CodecsOk x.app)
      ⟨⟨rfl, rfl, rfl, rfl, rfl⟩, ⟨by decide, by decide, by decide, by decide⟩,
        ⟨by decide, by decide, by decide, by decide⟩⟩
      fun _ _ _ hx hs => ⟨.of_head hs.head_eq hx.1, hs.codecsOk hx.1 hx.2⟩
  exact hboth.2

/-! ## The ring of recorded voice as a queue -/

/-- The packets to send are the bytes `q`. -/
structure RecordOk (q : List UInt8) (r : Record) : Prop where
  packets : 80 * r.audioDataEn = q.length
  fits : q.length ≤ audioDataMax
  num : r.audioDataNum = (r.audioDataNumSend + q.length) % audioDataMax
  send : r.audioDataNumSend < audioDataMax
  whole : r.audioDataNumSend % 80 = 0
  queued : Mem.Queued audioDataMax r.audioData r.audioDataNumSend q

theorem RecordOk.empty {r : Record} (hen : r.audioDataEn = 0)
    (hnum : r.audioDataNum = r.audioDataNumSend) (hsend : r.audioDataNumSend < audioDataMax)
    (hwhole : r.audioDataNumSend % 80 = 0) : RecordOk [] r where
  packets := by simp [hen]
  fits := Nat.zero_le _
  num := by rw [List.length_nil, Nat.add_zero, Nat.mod_eq_of_lt hsend, hnum]
  send := hsend
  whole := hwhole
  queued := Mem.queued_nil _ _ _

/-- A ring write that does not reach the end is one copy. -/
theorem ringStore_of_le {cap p n : Nat} (m src : Mem) (h : p + n ≤ cap) :
    Mem.ringStore cap m p src n = m.memcpy p src n :=
  if_neg (Nat.not_lt.mpr h)

/-- The write position of a queue of packets. -/
theorem RecordOk.num_lt {q : List UInt8} {r : Record} (h : RecordOk q r) :
    r.audioDataNum + 80 ≤ audioDataMax := by
  have hp := h.packets
  have hnum := h.num
  have hwhole := h.whole
  unfold audioDataMax at *
  omega

/-- **Recording a frame** appends its packet, if there is room. -/
theorem RecordOk.record {q : List UInt8} {s : App} (h : RecordOk q s.record) (hin : Recording s)
    (hroom : q.length + 80 ≤ audioDataMax) (buff : Mem) :
    RecordOk (q ++ packetOf buff s.encode) (audioRecordCb buff 320 s).record := by
  have hlen : (q ++ packetOf buff s.encode).length = q.length + 80 := by
    rw [List.length_append, length_packetOf]
  have hbytes : (Mem.ofList (packetOf buff s.encode)).slice 0 80 = packetOf buff s.encode := by
    have h := Mem.slice_ofList (packetOf buff s.encode)
    rwa [length_packetOf] at h
  have hpackets := h.packets
  rw [audioRecordCb_frame hin]
  refine ⟨?_, ?_, ?_, h.send, h.whole, ?_⟩
  · rw [hlen]
    show 80 * (s.record.audioDataEn + 1) = q.length + 80
    omega
  · rw [hlen]
    exact hroom
  · rw [hlen]
    show Mem.ringWrap audioDataMax (s.record.audioDataNum + 80) =
      (s.record.audioDataNumSend + (q.length + 80)) % audioDataMax
    have hlt := h.num_lt
    rw [Mem.ringWrap_eq_mod (by unfold audioDataMax at *; omega), h.num, Nat.mod_add_mod,
      Nat.add_assoc]
  · have hpush := h.queued.push (n := 80) (Mem.ofList (packetOf buff s.encode)) hroom
    rw [← h.num, ringStore_of_le _ _ h.num_lt, hbytes] at hpush
    exact hpush

/-- **Sending a packet** takes it off, and it is the oldest one. -/
theorem RecordOk.sent {q : List UInt8} {r : Record} (h : RecordOk q r) (hen : r.audioDataEn ≠ 0) :
    (r.audioData.ptr r.audioDataNumSend).slice 0 audioDataEnMax = q.take 80 ∧
      RecordOk (q.drop 80) (voiceSent r) := by
  have hpackets := h.packets
  have hsend := h.send
  have hwhole := h.whole
  have hend : r.audioDataNumSend + 80 ≤ audioDataMax := by
    unfold audioDataMax at *
    omega
  have hwrap : Mem.ringWrap audioDataMax (r.audioDataNumSend + 80) =
      (r.audioDataNumSend + 80) % audioDataMax :=
    Mem.ringWrap_eq_mod (by unfold audioDataMax at *; omega)
  have hfront := h.queued.front hend (by omega)
  refine ⟨?_, ?_, ?_, ?_, ?_, ?_, ?_⟩
  · rw [← hfront]
    exact Mem.slice_congr fun k _ => by rw [Mem.ptr_apply, Nat.zero_add]
  · rw [List.length_drop]
    show 80 * (r.audioDataEn - 1) = _
    omega
  · have hfits := h.fits
    rw [List.length_drop]
    omega
  · rw [List.length_drop]
    show r.audioDataNum = (Mem.ringWrap audioDataMax (r.audioDataNumSend + 80) + _) % _
    rw [hwrap, Nat.mod_add_mod, h.num]
    congr 1
    omega
  · show Mem.ringWrap audioDataMax (r.audioDataNumSend + 80) < audioDataMax
    rw [hwrap]
    exact Nat.mod_lt _ (by decide)
  · show Mem.ringWrap audioDataMax (r.audioDataNumSend + 80) % 80 = 0
    unfold Mem.ringWrap audioDataMax at *
    split <;> omega
  · show Mem.Queued audioDataMax r.audioData
      (Mem.ringWrap audioDataMax (r.audioDataNumSend + 80)) (q.drop 80)
    rw [hwrap]
    exact h.queued.pop 80

/-! ## Two devices -/

instance (s : App) : Decidable (Recording s) :=
  decidable_of_iff (s.call.isMailListALL = 0 ∧ s.link.socketFd ≠ -1 ∧
    s.call.callUserOperation ≠ 0) ⟨fun h => ⟨h.1, h.2.1, h.2.2⟩, fun h => ⟨h.1, h.2, h.3⟩⟩

/-- The device that records, the packets on the way, and the device that plays. -/
structure VoiceLink where
  sender : App
  channel : List (List UInt8)
  peer : App

/-- What can happen on the way of the voice. -/
inductive VoiceOp where
  | record (buff : Mem)
  | send (io : Platform)
  | deliver
  | play

/-- One operation; at most 500 packets wait in either ring. -/
def voiceExec (a : VoiceOp) (x : VoiceLink) : Option VoiceLink :=
  match a with
  | .record buff =>
      if Recording x.sender ∧ x.sender.record.audioDataEn < 500 then
        some { x with sender := audioRecordCb buff 320 x.sender }
      else none
  | .send io =>
      if x.sender.record.audioDataEn = 0 then none
      else
        -- what is sent is the header of 8 bytes and the packet
        some { x with
          sender := message125 io x.sender
          channel := x.channel ++
            [(message125 io x.sender).sent.drop (x.sender.sent.length + 8)] }
  | .deliver =>
      match x.channel with
      | [] => none
      | packet :: packets =>
          if x.peer.play.playDataEn < 500 then
            some { x with
              channel := packets
              peer := { x.peer with
                play := fillAudio (Mem.ofList packet) packet.length x.peer.play } }
          else none
  | .play => some { x with peer := (audioPlayCb x.peer).2 }

/-- What the encoder and the decoder have gone through, and the samples played. -/
structure VoiceHistory where
  encoded : List (Nat × Adpcm)
  decoded : List (Nat × Adpcm)
  played : List Int

/-- A step, observed: the samples recorded, and the packet decoded where there is one. -/
def VoiceHistory.after (h : VoiceHistory) (e : Run.Step VoiceOp VoiceLink) : VoiceHistory :=
  match e.act with
  | .record buff =>
      { h with encoded := h.encoded ++ encoderTrace (samplePairs buff 0 80) e.pre.sender.encode }
  | .play =>
      if e.pre.peer.play.playDataEn = 0 then h
      else
        { h with
          decoded := h.decoded ++ decoderTrace
            (e.pre.peer.play.playData.slice e.pre.peer.play.audioDataPlay 80) e.pre.peer.decode
          played := h.played ++ (audioPlayCb e.pre.peer).1 }
  | _ => h

/-- The history of a run. -/
def voiceHistory (l : List (Run.Step VoiceOp VoiceLink)) : VoiceHistory :=
  l.foldl VoiceHistory.after ⟨[], [], []⟩

/-- The start: nothing on the way, both rings empty, and the codecs in one state. -/
structure VoiceStart (x : VoiceLink) : Prop where
  channel : x.channel = []
  record : RecordOk [] x.sender.record
  play : PlayOk [] x.peer.play
  codecs : x.peer.decode = x.sender.encode

/-- What waits: the bytes `r` in the peer's ring, the packets on the way, and the bytes `q` in
the sender's ring.  Decoding them brings the decoder where the encoder is. -/
structure PathOk (st : Adpcm) (h : VoiceHistory) (q r : List UInt8) (x : VoiceLink) : Prop where
  record : RecordOk q x.sender.record
  play : PlayOk r x.peer.play
  whole : r.length % 80 = 0
  packets : ∀ packet ∈ x.channel, packet.length = 80
  encoded : h.encoded = h.decoded ++ decoderTrace (r ++ x.channel.flatten ++ q) x.peer.decode
  encode : (decodeBytes (r ++ x.channel.flatten ++ q) x.peer.decode).2 = x.sender.encode
  played : h.played = h.decoded.map fun p => p.2.predsample
  decode : x.peer.decode = lastState st h.decoded
  codes : ∀ p ∈ h.encoded, CodeOk p

/-- **A frame is recorded.** -/
theorem PathOk.recorded {st : Adpcm} {h : VoiceHistory} {q r : List UInt8} {x : VoiceLink}
    (hx : PathOk st h q r x) (hin : Recording x.sender) (hen : x.sender.record.audioDataEn < 500)
    (buff : Mem) :
    PathOk st
      { h with encoded := h.encoded ++ encoderTrace (samplePairs buff 0 80) x.sender.encode }
      (q ++ packetOf buff x.sender.encode) r
      { x with sender := audioRecordCb buff 320 x.sender } := by
  have hpackets := hx.record.packets
  have hroom : q.length + 80 ≤ audioDataMax := by
    unfold audioDataMax
    omega
  have htrace : decoderTrace (packetOf buff x.sender.encode) x.sender.encode =
      encoderTrace (samplePairs buff 0 80) x.sender.encode := decoderTrace_encodeBytes _ _
  have hstate : (audioRecordCb buff 320 x.sender).encode =
      (decodeBytes (packetOf buff x.sender.encode) x.sender.encode).2 := by
    rw [audioRecordCb_frame hin, packetOf, decodeBytes_encodeBytes]
    rfl
  refine ⟨hx.record.record hin hroom buff, hx.play, hx.whole, hx.packets, ?_, ?_, hx.played,
    hx.decode, ?_⟩
  · show h.encoded ++ _ = h.decoded ++
      decoderTrace (r ++ x.channel.flatten ++ (q ++ packetOf buff x.sender.encode)) x.peer.decode
    rw [← List.append_assoc, decoderTrace_append, hx.encode, htrace, hx.encoded,
      List.append_assoc]
  · show (decodeBytes (r ++ x.channel.flatten ++ (q ++ packetOf buff x.sender.encode))
      x.peer.decode).2 = (audioRecordCb buff 320 x.sender).encode
    rw [← List.append_assoc, decodeBytes_append, hx.encode, hstate]
  · intro p hp
    rcases List.mem_append.mp hp with hp | hp
    · exact hx.codes p hp
    · rw [← htrace] at hp
      exact decoderTrace_ok _ _ p hp

/-- What message 125 sends is the header, and the packet at the read position. -/
theorem message125_packet (io : Platform) {s : App} (hen : s.record.audioDataEn ≠ 0) :
    (message125 io s).sent.drop (s.sent.length + 8) =
      (s.record.audioData.ptr s.record.audioDataNumSend).slice 0 audioDataEnMax := by
  have hsent : (message125 io s).sent =
      (s.sent ++ (poke 5 [0x09, 0, 0x50] s).socketDataHandle.slice 0 8) ++
        (s.record.audioData.ptr s.record.audioDataNumSend).slice 0 audioDataEnMax := by
    unfold message125 sendVoice newConnect
    rw [if_neg hen]
    simp only [App.sent, App.wires]
    split <;> simp [App.socketSend, App.log, sendHandle, poke, Out.sent, List.flatMap_append]
  rw [hsent, List.drop_left']
  rw [List.length_append, Mem.length_slice]

/-- **A packet is sent.** -/
theorem PathOk.sent {st : Adpcm} {h : VoiceHistory} {q r : List UInt8} {x : VoiceLink}
    (hx : PathOk st h q r x) (hen : x.sender.record.audioDataEn ≠ 0) (io : Platform) :
    PathOk st h (q.drop 80) r { x with
      sender := message125 io x.sender
      channel := x.channel ++ [(message125 io x.sender).sent.drop (x.sender.sent.length + 8)] } := by
  obtain ⟨hpacket, hrecord⟩ := hx.record.sent hen
  have hlen : (q.take 80).length = 80 := by
    have hpackets := hx.record.packets
    rw [List.length_take]
    omega
  have hsender : message125 io x.sender =
      { sendVoice io x.sender with record := voiceSent x.sender.record } := if_neg hen
  have hflat : r ++ (x.channel ++ [q.take 80]).flatten ++ q.drop 80 =
      r ++ x.channel.flatten ++ q := by
    simp
  rw [message125_packet io hen, hpacket]
  refine ⟨?_, hx.play, hx.whole, ?_, ?_, ?_, hx.played, hx.decode, hx.codes⟩
  · rw [hsender]
    exact hrecord
  · intro packet hp
    rcases List.mem_append.mp hp with hp | hp
    · exact hx.packets packet hp
    · rw [List.mem_singleton.mp hp]
      exact hlen
  · rw [hflat]
    exact hx.encoded
  · rw [hflat, hx.encode, hsender]
    rfl

/-- **A packet is delivered.** -/
theorem PathOk.delivered {st : Adpcm} {h : VoiceHistory} {q r : List UInt8} {x : VoiceLink}
    (hx : PathOk st h q r x) {packet : List UInt8} {packets : List (List UInt8)}
    (hchannel : x.channel = packet :: packets) (hen : x.peer.play.playDataEn < 500) :
    PathOk st h q (r ++ packet) { x with
      channel := packets
      peer := { x.peer with
        play := fillAudio (Mem.ofList packet) packet.length x.peer.play } } := by
  have hlen : packet.length = 80 := hx.packets packet (by simp [hchannel])
  have hunread := hx.play.unread
  have hnew := hx.play.new
  have hwhole := hx.whole
  unfold Play.unread at hunread
  have hfill := hx.play.fill (Mem.ofList packet) (show 2 ≤ packet.length by omega)
    (by unfold playDataMax; omega)
  rw [Mem.slice_ofList] at hfill
  have hflat : r ++ packet ++ packets.flatten ++ q = r ++ x.channel.flatten ++ q := by
    simp [hchannel]
  refine ⟨hx.record, hfill, ?_, fun p hp => hx.packets p (by simp [hchannel, hp]), ?_, ?_,
    hx.played, hx.decode, hx.codes⟩
  · rw [List.length_append]
    omega
  · rw [hflat]
    exact hx.encoded
  · rw [hflat]
    exact hx.encode

/-- **A packet is played.** -/
theorem PathOk.playCb {st : Adpcm} {h : VoiceHistory} {q r : List UInt8} {x : VoiceLink}
    (hx : PathOk st h q r x) (hen : x.peer.play.playDataEn ≠ 0) :
    PathOk st
      { h with
        decoded := h.decoded ++ decoderTrace
          (x.peer.play.playData.slice x.peer.play.audioDataPlay 80) x.peer.decode
        played := h.played ++ (audioPlayCb x.peer).1 }
      q (r.drop 80) { x with peer := (audioPlayCb x.peer).2 } := by
  obtain ⟨hlen, -, hslice⟩ := hx.play.packet hen
  obtain ⟨hsamples, hplay⟩ := hx.play.playCb hen
  have hsplit : r ++ x.channel.flatten ++ q =
      r.take 80 ++ (r.drop 80 ++ x.channel.flatten ++ q) := by
    simp [← List.append_assoc]
  have hdecode : (audioPlayCb x.peer).2.decode = (decodeBytes (r.take 80) x.peer.decode).2 := by
    unfold audioPlayCb
    rw [if_neg hen, decodePacket_eq, hslice]
  rw [hslice]
  refine ⟨hx.record, hplay, ?_, hx.packets, ?_, ?_, ?_, ?_, hx.codes⟩
  · have hwhole := hx.whole
    rw [List.length_drop]
    omega
  · show h.encoded = h.decoded ++ decoderTrace (r.take 80) x.peer.decode ++
      decoderTrace (r.drop 80 ++ x.channel.flatten ++ q) (audioPlayCb x.peer).2.decode
    rw [hx.encoded, hsplit, decoderTrace_append, hdecode, ← List.append_assoc h.decoded]
  · have hencode := hx.encode
    rw [hsplit, decodeBytes_append] at hencode
    show (decodeBytes _ (audioPlayCb x.peer).2.decode).2 = x.sender.encode
    rw [hdecode]
    exact hencode
  · rw [hsamples, decodeBytes_samples, List.map_append, hx.played]
  · show (audioPlayCb x.peer).2.decode = _
    rw [hdecode, decodeBytes_state, lastState_append, hx.decode]

/-! ## Runs -/

/-- What the voice path promises: the decoder has gone through the first states of the
encoder, and played their samples; the codecs stand where these say, and as many samples are
between them as wait in the rings and on the way; all codes and states are in range. -/
structure FollowsEncoder (st : Adpcm) (h : VoiceHistory) (x : VoiceLink) : Prop where
  decoded : h.decoded <+: h.encoded
  played : h.played = (h.encoded.map fun p => p.2.predsample).take h.played.length
  encode : x.sender.encode = lastState st h.encoded
  decode : x.peer.decode = lastState st h.decoded
  waiting : h.encoded.length = h.played.length +
    160 * (x.sender.record.audioDataEn + x.channel.length + x.peer.play.playDataEn)
  start : CodecOk st
  codes : ∀ p ∈ h.encoded, p.1 < 16 ∧ CodecOk p.2

theorem PathOk.follows {st : Adpcm} {h : VoiceHistory} {q r : List UInt8} {x : VoiceLink}
    (hx : PathOk st h q r x) (hst : CodecOk st) : FollowsEncoder st h x := by
  have hlen : h.played.length = h.decoded.length := by rw [hx.played, List.length_map]
  refine ⟨⟨_, hx.encoded.symm⟩, ?_, ?_, hx.decode, ?_, hst, hx.codes⟩
  · rw [hlen, hx.encoded, List.map_append, ← List.length_map (fun p => p.2.predsample),
      List.take_left, hx.played]
  · rw [hx.encoded, lastState_append, ← hx.decode, ← decodeBytes_state, hx.encode]
  · have hflat : x.channel.flatten.length = 80 * x.channel.length := by
      have hpackets := hx.packets
      generalize x.channel = c at hpackets
      induction c with
      | nil => rfl
      | cons packet c ih =>
          have hp := hpackets packet (by simp)
          have hc := ih fun p hp => hpackets p (by simp [hp])
          rw [List.flatten_cons, List.length_append, List.length_cons, hp, hc]
          omega
    have hpackets := hx.record.packets
    have hunread := hx.play.unread
    have hnew := hx.play.new
    have hwhole := hx.whole
    unfold Play.unread at hunread
    rw [hlen, hx.encoded, List.length_append, decoderTrace_length, List.length_append,
      List.length_append, hflat]
    omega

theorem pathOk_of_run {x y : VoiceLink} {l : List (Run.Step VoiceOp VoiceLink)}
    (hstart : VoiceStart x) (hr : Run.Runs voiceExec x l y) :
    ∃ q r, PathOk x.sender.encode (voiceHistory l) q r y := by
  induction hr with
  | nil =>
      refine ⟨[], [], hstart.record, hstart.play, rfl, ?_, ?_, ?_, rfl, hstart.codecs, ?_⟩
      · rw [hstart.channel]
        exact fun _ hp => absurd hp List.not_mem_nil
      · rw [hstart.channel]
        rfl
      · rw [hstart.channel]
        exact hstart.codecs
      · exact fun _ hp => absurd hp List.not_mem_nil
  | @snoc l y z a _ he ih =>
      obtain ⟨q, r, hy⟩ := ih
      have hsnoc : voiceHistory (l ++ [⟨y, a, z⟩]) = (voiceHistory l).after ⟨y, a, z⟩ := by
        simp [voiceHistory]
      rw [hsnoc]
      unfold voiceExec at he
      cases a with
      | record buff =>
          dsimp only at he
          split at he
          · next hin =>
              obtain rfl := Option.some.inj he
              exact ⟨_, _, hy.recorded hin.1 hin.2 buff⟩
          · exact nomatch he
      | send io =>
          dsimp only at he
          split at he
          · exact nomatch he
          · next hen =>
              obtain rfl := Option.some.inj he
              exact ⟨_, _, hy.sent hen io⟩
      | deliver =>
          dsimp only at he
          split at he
          · exact nomatch he
          · next packet packets hchannel =>
              split at he
              · next hen =>
                  obtain rfl := Option.some.inj he
                  exact ⟨_, _, hy.delivered hchannel hen⟩
              · exact nomatch he
      | play =>
          obtain rfl := Option.some.inj he
          unfold VoiceHistory.after
          dsimp only
          by_cases hen : y.peer.play.playDataEn = 0
          · have hcb : (audioPlayCb y.peer).2 = y.peer := by
              unfold audioPlayCb
              rw [if_pos hen]
            rw [if_pos hen, hcb]
            exact ⟨q, r, hy⟩
          · rw [if_neg hen]
            exact ⟨_, _, hy.playCb hen⟩

/-- **The voice path.**  From a start at which the codecs of the two devices agree, and in
every order of recording, sending, delivering and playing, the peer plays what the encoder
reconstructs. -/
theorem voicePath_follows {x y : VoiceLink} {l : List (Run.Step VoiceOp VoiceLink)}
    (hsender : Reachable ⟨x.sender, none⟩) (hstart : VoiceStart x)
    (hr : Run.Runs voiceExec x l y) : FollowsEncoder x.sender.encode (voiceHistory l) y := by
  obtain ⟨q, r, hy⟩ := pathOk_of_run hstart hr
  exact hy.follows hsender.codecsOk.1

/-- A device in a call records two frames, and another one, just started, plays the first. -/
theorem oneFrame_follows :
    ∃ x l y, Run.Runs voiceExec x l y ∧ (voiceHistory l).encoded.length = 320 ∧
      (voiceHistory l).played.length = 160 ∧
      FollowsEncoder x.sender.encode (voiceHistory l) y := by
  obtain ⟨l, y, hr, hq⟩ := Runs.of_acts_test (l := [.socket Platform.connects,
    .socketEvent (.readInd 10), .recv acceptedFrame, .isCmd, .isCmd, .isCmd, .isCmd,
    .mp3 Platform.silent, .audio Platform.silent, .audio Platform.silent])
    (q := fun _ y => decide (y.atIsCmd = none ∧ y.app.record.audioDataEn = 0 ∧
        y.app.record.audioDataNum = 0 ∧ y.app.record.audioDataNumSend = 0 ∧
        y.app.encode = ⟨0, 0⟩) &&
      (Run.trace voiceExec [.record fun k => UInt8.ofNat k, .record fun k => UInt8.ofNat (7 * k),
        .send Platform.silent, .deliver, .play] ⟨y.app, [], App.init⟩).any fun t =>
          (voiceHistory t.1).encoded.length == 320 && (voiceHistory t.1).played.length == 160)
    (by decide +kernel)
  obtain ⟨s, pc⟩ := y
  obtain ⟨hstate, htrace⟩ := (Bool.and_eq_true _ _).mp hq
  obtain ⟨rfl, hen, hnum, hsend, hencode⟩ := of_decide_eq_true hstate
  have hstart : VoiceStart ⟨s, [], App.init⟩ :=
    ⟨rfl, .empty hen (hnum.trans hsend.symm) (by rw [hsend]; decide) (by rw [hsend]),
      .empty rfl rfl rfl rfl, hencode.symm⟩
  obtain ⟨t, z, hrun, hlen⟩ := Run.Runs.of_trace_test
    (q := fun t _ => (voiceHistory t).encoded.length == 320 &&
      (voiceHistory t).played.length == 160) htrace
  obtain ⟨hencoded, hplayed⟩ := (Bool.and_eq_true _ _).mp hlen
  exact ⟨_, t, z, hrun, by simpa using hencoded, by simpa using hplayed,
    voicePath_follows ⟨l, hr⟩ hstart hrun⟩

end IntercomSalve
