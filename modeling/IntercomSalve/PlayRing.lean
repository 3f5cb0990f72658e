/-
# `PlayRing` — the ring of received voice is a queue

`fill_audio` appends as many bytes as a frame brings, `AudioPlayCb` takes 80 at a time,
and `MSG_EVT_HMI_NEWS` empties the ring.  Five variables say what is in it: the two
positions, the packets that are complete, the bytes of the one that is not, and the
ring itself.  `PlayOk` ties them to a queue, and each of the three operations is one
of the queue (`PlayOk.fill`, `PlayOk.playCb`, `PlayOk.hmiNews`), as long as what is
stored fits behind what is unread.
-/
import IntercomSalve.Codec
import IntercomSalve.Frames

namespace IntercomSalve

/-! ## The operations, and what has arrived -/

/-- The bytes that are stored and not played. -/
def Play.unread (p : Play) : Nat := 80 * p.playDataEn + p.playDataNew

/-- What can happen to the ring. -/
inductive PlayOp where
  | fill (pdat : Mem) (lines : Nat)
  | playCb
  | hmiNews

/-- One operation; voice is stored only where it fits behind what is unread. -/
def playExec (a : PlayOp) (s : App) : Option App :=
  match a with
  | .fill pdat lines =>
      if 2 ≤ lines ∧ lines ≤ playDataMax ∧ s.play.unread + lines ≤ playDataMax then
        some { s with play := fillAudio pdat lines s.play }
      else none
  | .playCb => some (audioPlayCb s).2
  | .hmiNews => some (hmiNews s)

/-- The bytes that have arrived since the last reset, and the packets played of them. -/
structure Arrivals where
  bytes : List UInt8
  played : Nat

/-- What a step adds to the arrivals. -/
def Arrivals.after (h : Arrivals) (e : Run.Step PlayOp App) : Arrivals :=
  match e.act with
  | .fill pdat lines => { h with bytes := h.bytes ++ pdat.slice 0 lines }
  | .playCb => if e.pre.play.playDataEn = 0 then h else { h with played := h.played + 1 }
  | .hmiNews => ⟨[], 0⟩

/-- The arrivals of a run. -/
def arrivals (l : List (Run.Step PlayOp App)) : Arrivals := l.foldl Arrivals.after ⟨[], 0⟩

/-- The bytes that have arrived and are not played, in order of arrival. -/
def Arrivals.queue (h : Arrivals) : List UInt8 := h.bytes.drop (80 * h.played)

/-! ## The invariant -/

/-- The ring is the queue `q`. -/
structure PlayOk (q : List UInt8) (p : Play) : Prop where
  unread : p.unread = q.length
  fits : q.length ≤ playDataMax
  new : p.playDataNew < 80
  num : p.playDataNum = (p.audioDataPlay + q.length) % playDataMax
  play : p.audioDataPlay < playDataMax
  whole : p.audioDataPlay % 80 = 0
  queued : Mem.Queued playDataMax p.playData p.audioDataPlay q

theorem PlayOk.empty {p : Play} (hnum : p.playDataNum = 0) (hnew : p.playDataNew = 0)
    (hen : p.playDataEn = 0) (hplay : p.audioDataPlay = 0) : PlayOk [] p where
  unread := by simp [Play.unread, hen, hnew]
  fits := Nat.zero_le _
  new := by simp [hnew]
  num := by simp [hnum, hplay]
  play := by
    rw [hplay]
    decide
  whole := by rw [hplay]
  queued := Mem.queued_nil _ _ _

/-- `MSG_EVT_HMI_NEWS`. -/
theorem PlayOk.hmiNews (s : App) : PlayOk [] (hmiNews s).play := .empty rfl rfl rfl rfl

/-- `fill_audio`, where there is room. -/
theorem PlayOk.fill {q : List UInt8} {p : Play} (h : PlayOk q p) (pdat : Mem) {lines : Nat}
    (h2 : 2 ≤ lines) (hroom : q.length + lines ≤ playDataMax) :
    PlayOk (q ++ pdat.slice 0 lines) (fillAudio pdat lines p) := by
  have hpos : 0 < playDataMax := by decide
  have hnum : p.playDataNum < playDataMax := by
    rw [h.num]
    exact Nat.mod_lt _ hpos
  have hlen : (q ++ pdat.slice 0 lines).length = q.length + lines := by simp
  rw [fillAudio_eq hnum h2]
  refine ⟨?_, ?_, ?_, ?_, h.play, h.whole, ?_⟩
  · have hunread := h.unread
    unfold Play.unread at hunread ⊢
    rw [hlen]
    dsimp only
    omega
  · rw [hlen]
    exact hroom
  · exact Nat.mod_lt _ (by decide)
  · rw [hlen]
    show Mem.ringWrap playDataMax (p.playDataNum + lines) = _
    rw [Mem.ringWrap_eq_mod (by omega), h.num, Nat.mod_add_mod, Nat.add_assoc]
  · show Mem.Queued playDataMax
      (Mem.ringStore playDataMax p.playData p.playDataNum pdat lines) p.audioDataPlay _
    rw [h.num]
    exact h.queued.push _ hroom

/-- A packet to play is 80 bytes of the queue, in one piece. -/
theorem PlayOk.packet {q : List UInt8} {p : Play} (h : PlayOk q p) (hen : p.playDataEn ≠ 0) :
    80 ≤ q.length ∧ p.audioDataPlay + 80 ≤ playDataMax ∧
      p.playData.slice p.audioDataPlay 80 = q.take 80 := by
  have hunread := h.unread
  have hplay := h.play
  have hwhole := h.whole
  unfold Play.unread at hunread
  have hlen : 80 ≤ q.length := by omega
  have hend : p.audioDataPlay + 80 ≤ playDataMax := by
    unfold playDataMax at *
    omega
  exact ⟨hlen, hend, h.queued.front hend hlen⟩

/-- `AudioPlayCb`: the samples of the next packet. -/
theorem PlayOk.playCb {q : List UInt8} {s : App} (h : PlayOk q s.play)
    (hen : s.play.playDataEn ≠ 0) :
    (audioPlayCb s).1 = (decodeBytes (q.take 80) s.decode).1 ∧
      PlayOk (q.drop 80) (audioPlayCb s).2.play := by
  obtain ⟨hlen, hend, hslice⟩ := h.packet hen
  have hcb : audioPlayCb s =
      ((decodePacket s.play.playData s.play.audioDataPlay 80 s.decode).1,
        { s with
          play.playDataEn := s.play.playDataEn - 1
          play.audioDataPlay := Mem.ringWrap playDataMax (s.play.audioDataPlay + 80)
          decode := (decodePacket s.play.playData s.play.audioDataPlay 80 s.decode).2 }) :=
    if_neg hen
  have hwrap : Mem.ringWrap playDataMax (s.play.audioDataPlay + 80) =
      (s.play.audioDataPlay + 80) % playDataMax :=
    Mem.ringWrap_eq_mod (by unfold playDataMax at *; omega)
  rw [hcb]
  refine ⟨by rw [decodePacket_eq, hslice], ?_⟩
  have hunread := h.unread
  have hplay := h.play
  have hwhole := h.whole
  unfold Play.unread at hunread
  refine ⟨?_, ?_, h.new, ?_, ?_, ?_, ?_⟩
  · rw [List.length_drop]
    show 80 * (s.play.playDataEn - 1) + s.play.playDataNew = _
    omega
  · have hfits := h.fits
    rw [List.length_drop]
    omega
  · rw [List.length_drop]
    show s.play.playDataNum = (Mem.ringWrap playDataMax (s.play.audioDataPlay + 80) + _) % _
    rw [hwrap, Nat.mod_add_mod, h.num]
    congr 1
    omega
  · show Mem.ringWrap playDataMax (s.play.audioDataPlay + 80) < playDataMax
    exact Mem.ringWrap_lt (by unfold playDataMax at *; omega)
  · show Mem.ringWrap playDataMax (s.play.audioDataPlay + 80) % 80 = 0
    unfold Mem.ringWrap playDataMax at *
    split <;> omega
  · show Mem.Queued playDataMax s.play.playData
      (Mem.ringWrap playDataMax (s.play.audioDataPlay + 80)) (q.drop 80)
    rw [hwrap]
    exact h.queued.pop 80

/-! ## Runs -/

theorem arrivals_snoc (l : List (Run.Step PlayOp App)) (e : Run.Step PlayOp App) :
    arrivals (l ++ [e]) = (arrivals l).after e := by
  simp [arrivals]

/-- In every run the ring is the queue of what has arrived and is not played. -/
theorem playOk_of_run {l : List (Run.Step PlayOp App)} {y : App}
    (hr : Run.Runs playExec App.init l y) :
    80 * (arrivals l).played ≤ (arrivals l).bytes.length ∧
      PlayOk (arrivals l).queue y.play := by
  induction hr with
  | nil => exact ⟨Nat.le_refl _, .empty rfl rfl rfl rfl⟩
  | @snoc l y z a _ he ih =>
      obtain ⟨hplayed, hok⟩ := ih
      rw [arrivals_snoc]
      cases a with
      | fill pdat lines =>
          unfold playExec at he
          dsimp only at he
          split at he
          · next hroom =>
              obtain rfl := Option.some.inj he
              have hunread := hok.unread
              have hqueue : ((arrivals l).after
                  ⟨y, .fill pdat lines, { y with play := fillAudio pdat lines y.play }⟩).queue =
                    (arrivals l).queue ++ pdat.slice 0 lines :=
                List.drop_append_of_le_length hplayed
              refine ⟨?_, ?_⟩
              · show 80 * (arrivals l).played ≤ ((arrivals l).bytes ++ pdat.slice 0 lines).length
                rw [List.length_append]
                omega
              · rw [hqueue]
                exact hok.fill _ hroom.1 (by omega)
          · exact nomatch he
      | playCb =>
          obtain rfl := Option.some.inj he
          by_cases hen : y.play.playDataEn = 0
          · have hsame : (arrivals l).after ⟨y, .playCb, (audioPlayCb y).2⟩ = arrivals l := if_pos hen
            have hcb : audioPlayCb y = ([], y) := if_pos hen
            rw [hsame, hcb]
            exact ⟨hplayed, hok⟩
          · have hnext : (arrivals l).after ⟨y, .playCb, (audioPlayCb y).2⟩ =
                { arrivals l with played := (arrivals l).played + 1 } := if_neg hen
            have hlen := (hok.packet hen).1
            have hqueue : ({ arrivals l with played := (arrivals l).played + 1 } : Arrivals).queue =
                (arrivals l).queue.drop 80 := by
              simp only [Arrivals.queue, List.drop_drop]
              congr 1
            rw [hnext, hqueue]
            refine ⟨?_, (hok.playCb hen).2⟩
            rw [Arrivals.queue, List.length_drop] at hlen
            show 80 * ((arrivals l).played + 1) ≤ (arrivals l).bytes.length
            omega
      | hmiNews =>
          obtain rfl := Option.some.inj he
          exact ⟨Nat.le_refl _, .hmiNews y⟩

/-- What the ring promises after the arrivals `h`: a callback decodes the next 80 bytes, the
positions stay inside and so does what is stored, and the counters say how far they are apart. -/
structure PlaysInOrder (h : Arrivals) (s : App) : Prop where
  next : s.play.playDataEn ≠ 0 →
    80 * (h.played + 1) ≤ h.bytes.length ∧
      (audioPlayCb s).1 = (decodeBytes ((h.bytes.drop (80 * h.played)).take 80) s.decode).1
  num : s.play.playDataNum < playDataMax
  play : s.play.audioDataPlay + 80 ≤ playDataMax
  stores : ∀ (pdat : Mem) (lines i : Nat), 2 ≤ lines → lines ≤ playDataMax → playDataMax ≤ i →
    (fillAudio pdat lines s.play).playData i = s.play.playData i
  new : s.play.playDataNew < 80
  apart : ((s.play.playDataNum : Int) - s.play.audioDataPlay) % playDataMax =
    (80 * s.play.playDataEn + s.play.playDataNew) % playDataMax

theorem PlayOk.apart {q : List UInt8} {p : Play} (h : PlayOk q p) :
    ((p.playDataNum : Int) - p.audioDataPlay) % playDataMax =
      (80 * p.playDataEn + p.playDataNew) % playDataMax := by
  have hunread := h.unread
  have hnum := h.num
  unfold Play.unread playDataMax at *
  omega

/-- **The playback ring is a queue.**  After every run of stores that fit, callbacks and
resets, the next callback decodes the next 80 bytes that arrived since the last reset. -/
theorem playRing_inOrder {l : List (Run.Step PlayOp App)} {y : App}
    (hr : Run.Runs playExec App.init l y) : PlaysInOrder (arrivals l) y := by
  obtain ⟨-, hok⟩ := playOk_of_run hr
  have hnum : y.play.playDataNum < playDataMax := by
    rw [hok.num]
    exact Nat.mod_lt _ (by decide)
  refine ⟨?_, hnum, ?_, ?_, hok.new, hok.apart⟩
  · intro hen
    have hlen := (hok.packet hen).1
    refine ⟨?_, (hok.playCb hen).1⟩
    rw [Arrivals.queue, List.length_drop] at hlen
    omega
  · have hplay := hok.play
    have hwhole := hok.whole
    unfold playDataMax at *
    omega
  · intro pdat lines i h2 hmax hi
    rw [fillAudio_eq hnum h2]
    show Mem.ringStore playDataMax y.play.playData y.play.playDataNum pdat lines i = _
    rw [Mem.ringStore_apply _ _ hnum hmax, if_neg fun h => Nat.not_lt.mpr hi h.1]

/-- A packet and a half arrive, and one packet is played. -/
theorem onePacket_inOrder :
    ∃ l y, Run.Runs playExec App.init l y ∧ (arrivals l).played = 1 ∧
      PlaysInOrder (arrivals l) y := by
  have hr : Run.Runs playExec App.init _ _ :=
    .of_trace (l := [.fill (fun k => UInt8.ofNat k) 120, .playCb]) rfl
  exact ⟨_, _, hr, rfl, playRing_inOrder hr⟩

end IntercomSalve
