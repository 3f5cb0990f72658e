/-
# `Backlog` — received voice that is not played yet

Nothing in `fill_audio` looks at what is unread, and nothing slows the sender down: the
callback takes 80 bytes when the codec asks for them, and voice is stored as it comes, with
a call or without one.  So the backlog `80 * play_data_en + play_data_new` has no bound
(`backlog_unbounded`).  What the ring does promise is this: nothing unread is overwritten
in a run exactly if whatever is stored fits behind what is unread (`keepsUnread_iff`).
-/
import IntercomSalve.Fills

namespace IntercomSalve

open Goto

/-! ## Unread voice, and what overwrites it -/

/-- A byte that `AudioPlayCb` will still decode stands at place `i` of the ring. -/
def Play.holds (p : Play) (i : Nat) : Prop :=
  ∃ k, k < p.unread ∧ i = (p.audioDataPlay + k) % playDataMax

/-- After the step the backlog is not more than the ring, and the step has overwritten none
of it. -/
structure KeepsUnread (e : Run.Step Act Sys) : Prop where
  backlog : e.post.app.play.unread ≤ playDataMax
  intact : ∀ pdat lines, playOp e.pre e.act = some (.fill pdat lines) →
    ∀ i, fillWrites e.pre.app.play.playDataNum lines i → ¬ e.pre.app.play.holds i

/-- What is stored fits behind what is unread. -/
def FitsUnread (e : Run.Step Act Sys) : Prop :=
  fillLines (playOp e.pre e.act) < 2 ∨
    e.pre.app.play.unread + fillLines (playOp e.pre e.act) ≤ playDataMax

instance (e : Run.Step Act Sys) : Decidable (FitsUnread e) := by
  unfold FitsUnread
  infer_instance

/-- `fill_audio` counts what it stores, whether it fits or not. -/
theorem fillAudio_unread {pdat : Mem} {lines : Nat} {p : Play} (h : 2 ≤ lines) :
    (fillAudio pdat lines p).unread = p.unread + lines := by
  have hlines : ¬ lines ≤ 1 := by omega
  unfold fillAudio Play.unread
  rw [if_neg hlines]
  dsimp only
  split <;> omega

/-- What fits is stored beside what is unread. -/
theorem PlayOk.intact {q : List UInt8} {p : Play} (h : PlayOk q p) {lines i : Nat}
    (hfit : q.length + lines ≤ playDataMax) (hw : fillWrites p.playDataNum lines i) :
    ¬ p.holds i := by
  rintro ⟨k, hk, rfl⟩
  rw [h.unread] at hk
  have hnum := h.num
  have hplay := h.play
  obtain ⟨h2, hi⟩ := hw
  unfold playDataMax at *
  split at hi
  · rw [sub32_of_le (a := 40000) (by omega), sub32_of_le (by omega)] at hi
    omega
  · omega

/-- What fits keeps the ring in order, and so do the callback and the reset. -/
theorem PlayOk.after {q : List UInt8} {s : App} {o : Option PlayOp} (h : PlayOk q s.play)
    (hfit : fillLines o < 2 ∨ s.play.unread + fillLines o ≤ playDataMax) :
    ∃ q', PlayOk q' (playAfter o s) := by
  cases o with
  | none => exact ⟨q, h⟩
  | some o =>
      cases o with
      | fill pdat lines =>
          by_cases h2 : 2 ≤ lines
          · have hroom : q.length + lines ≤ playDataMax := by
              rw [← h.unread]
              exact hfit.resolve_left (Nat.not_lt.mpr h2)
            exact ⟨_, h.fill pdat h2 hroom⟩
          · have hsame : playAfter (some (.fill pdat lines)) s = s.play := if_pos (by omega)
            exact ⟨q, hsame ▸ h⟩
      | playCb =>
          by_cases hen : s.play.playDataEn = 0
          · have hsame : audioPlayCb s = ([], s) := if_pos hen
            refine ⟨q, ?_⟩
            show PlayOk q (audioPlayCb s).2.play
            rw [hsame]
            exact h
          · exact ⟨_, (h.playCb hen).2⟩
      | hmiNews => exact ⟨[], .hmiNews s⟩

/-- In a ring that is in order, a step keeps what is unread exactly if what it stores fits. -/
theorem keepsUnread_iff_fits {x y : Sys} {a : Act} {q : List UInt8} (h : Steps x a y)
    (hx : PlayOk q x.app.play) : KeepsUnread ⟨x, a, y⟩ ↔ FitsUnread ⟨x, a, y⟩ := by
  constructor
  · intro hkeep
    have hbacklog := hkeep.backlog
    rw [h.play_eq] at hbacklog
    by_cases h2 : fillLines (playOp x a) < 2
    · exact Or.inl h2
    · refine Or.inr ?_
      cases hop : playOp x a with
      | none => exact absurd (show fillLines (playOp x a) < 2 by rw [hop]; decide) h2
      | some o =>
          cases o with
          | fill pdat lines =>
              rw [hop] at hbacklog h2
              have hadds : (fillAudio pdat lines x.app.play).unread =
                  x.app.play.unread + lines := fillAudio_unread (Nat.le_of_not_lt h2)
              exact hadds ▸ hbacklog
          | playCb => exact absurd (show fillLines (playOp x a) < 2 by rw [hop]; decide) h2
          | hmiNews => exact absurd (show fillLines (playOp x a) < 2 by rw [hop]; decide) h2
  · intro hfit
    refine ⟨?_, ?_⟩
    · obtain ⟨q', hq'⟩ := hx.after hfit
      rw [h.play_eq, hq'.unread]
      exact hq'.fits
    · intro pdat lines hop i hw
      have hroom : x.app.play.unread + lines ≤ playDataMax := by
        unfold FitsUnread at hfit
        rw [hop] at hfit
        exact hfit.resolve_left (Nat.not_lt.mpr hw.1)
      rw [hx.unread] at hroom
      exact hx.intact hroom hw

/-- **Unread voice is kept** in a run exactly if whatever is stored fits behind it. -/
theorem keepsUnread_iff {l : List (Run.Step Act Sys)} {y : Sys}
    (hr : Run.Runs exec Sys.init l y) : (∀ e ∈ l, KeepsUnread e) ↔ ∀ e ∈ l, FitsUnread e := by
  refine hr.forall_iff (I := fun x => ∃ q, PlayOk q x.app.play) ⟨[], .empty rfl rfl rfl rfl⟩ ?_
  rintro x a y - ⟨q, hx⟩ he
  have hstep := exec_eq_some.mp he
  have hiff := keepsUnread_iff_fits hstep hx
  refine ⟨hiff, fun hkeep => ?_⟩
  rw [hstep.play_eq]
  exact hx.after (hiff.mp hkeep)

/-! ## Nothing bounds the backlog -/

/-- A voice frame with one packet. -/
def voicePacket : List UInt8 :=
  [0xAA, 0xFA, 0x00, 0x00, 0x01, 0x0A, 0x00, 0x50] ++ List.replicate 80 0x11

/-- Between two messages, with none waiting and no frame in progress: `n` packets wait. -/
structure PacketsWait (n : Nat) (x : Sys) : Prop where
  reach : Reachable x
  atIsCmd : x.atIsCmd = none
  msgs : x.app.socketMsgs = []
  save : x.app.rx.currentDataLengthSave = 0
  unread : x.app.play.unread = 80 * n

/-- The pass that reads the packet. -/
theorem isCmd_voicePacket {s : App} (hs : HandleOk s)
    (hbuf : ∀ i, i < 88 → s.rx.pRecv i = voicePacket.getD i 0) (hd : s.rx.handleDeviation = 0) :
    ∃ w, isCmd 88 s = .again w ∧ w.rx.handleDeviation = 88 ∧ w.rx.currentDataLengthSave = 0 ∧
      w.socketMsgs = s.socketMsgs ∧ w.play.unread = s.play.unread + 80 := by
  have hbyte : ∀ k, k < 88 → s.rx.byteAt k = voicePacket.getD k 0 := by
    intro k hk
    rw [Rx.byteAt, hd, Nat.add_zero]
    exact hbuf k hk
  have hlen : lenAt s = 80 := by
    unfold lenAt
    rw [hbyte 6 (by decide), hbyte 7 (by decide)]
    rfl
  have hheader : headerAt s := by
    rw [headerAt_iff hs, hbyte 0 (by decide), hbyte 1 (by decide), hbyte 2 (by decide),
      hbyte 3 (by decide)]
    exact ⟨rfl, rfl, rfl, rfl⟩
  have hcase : caseAt s = some .instruction10 := by
    rw [caseAt_eq_some]
    refine ⟨?_, rfl⟩
    unfold cmdAt
    rw [hbyte 5 (by decide)]
    rfl
  have hwhole : VoiceWhole 8 88 (opened .instruction10 s) := by
    show lenAt s ≤ sub32 (sub32 88 8) s.rx.handleDeviation
    rw [hlen, hd]
    decide
  have hpass : isCmd 88 s = voiceFrame 8 88 (opened .instruction10 s) := by
    rw [isCmd, if_pos (by omega), if_pos hheader, dispatch_some hcase]
    rfl
  refine ⟨_, hpass.trans (voiceFrame_whole hwhole), ?_, rfl, rfl, ?_⟩
  · show s.rx.handleDeviation + (lenAt s + 8) = 88
    rw [hd, hlen]
  · show (fillAudio _ (lenAt s) s.play).unread = _
    rw [hlen, fillAudio_unread (by decide)]

/-- One packet more arrives. -/
theorem PacketsWait.packet {n : Nat} {x : Sys} (h : PacketsWait n x) :
    ∃ y, PacketsWait (n + 1) y := by
  obtain ⟨s, pc⟩ := x
  obtain rfl : pc = none := h.atIsCmd
  have hmsgs : s.socketMsgs = [] := h.msgs
  have hlen : voicePacket.length = 88 := rfl
  -- the bytes are announced and received
  have hann : exec (.socketEvent (.readInd 88)) ⟨s, none⟩ =
      some ⟨s.postSocket (.msg122 88), none⟩ :=
    rfl
  have hqueue : (s.postSocket (.msg122 88)).socketMsgs = .msg122 88 :: [] := by
    show s.socketMsgs ++ [.msg122 88] = _
    rw [hmsgs]
    rfl
  let t : App := { s.postSocket (.msg122 88) with socketMsgs := [] }
  let u := rewind (socketRecv 88 voicePacket t)
  have hfresh : message122 88 voicePacket t = .again u :=
    message122_fresh (by rw [hlen]; decide) h.save
  have hrecv : exec (.recv voicePacket) ⟨s.postSocket (.msg122 88), none⟩ = some ⟨u, some 88⟩ := by
    rw [exec_eq_some.mpr (.recv hqueue (Nat.le_of_eq hlen)), hlen]
    show some (Sys.ofJump 88 (message122 88 voicePacket t)) = _
    rw [hfresh]
    rfl
  -- one pass reads the packet, the next finds the end
  have hok : HandleOk u := Reachable.handleOk h.reach
  have hbuf : ∀ i, i < 88 → u.rx.pRecv i = voicePacket.getD i 0 := by
    intro i hi
    show received 88 voicePacket s.rx.pRecv i = _
    exact received_of_lt (hlen ▸ hi)
  obtain ⟨w, hw, hend, hsave, hnone, hunread⟩ := isCmd_voicePacket hok hbuf rfl
  have hpass : exec .isCmd ⟨u, some 88⟩ = some ⟨w, some 88⟩ := by
    rw [exec_eq_some.mpr .isCmd, hw]
    rfl
  have hleave : exec .isCmd ⟨w, some 88⟩ = some ⟨w, none⟩ := by
    rw [exec_eq_some.mpr .isCmd, isCmd_of_ge (Nat.le_of_eq hend.symm)]
    rfl
  refine ⟨_, (((h.reach.snoc hann).snoc hrecv).snoc hpass).snoc hleave, rfl, hnone, hsave, ?_⟩
  have hx : s.play.unread = 80 * n := h.unread
  rw [hunread, Nat.mul_succ, ← hx]
  rfl

theorem packetsWait (n : Nat) : ∃ x, PacketsWait n x := by
  induction n with
  | zero =>
      let s : App := { App.init with socketMsgs := [] }
      have hconnect : exec (.socket Platform.silent) Sys.init =
          some ⟨socketTestThread Platform.silent .msg120 s, none⟩ := rfl
      exact ⟨_, Run.Reach.snoc (.refl _) hconnect, rfl, rfl, rfl, rfl⟩
  | succ n ih =>
      obtain ⟨x, hx⟩ := ih
      exact hx.packet

/-- **The backlog has no bound.** -/
theorem backlog_unbounded (n : Nat) : ∃ x, Reachable x ∧ 80 * n ≤ x.app.play.unread := by
  obtain ⟨x, hx⟩ := packetsWait n
  exact ⟨x, hx.reach, Nat.le_of_eq hx.unread.symm⟩

/-- 501 packets and no callback are more than the ring holds. -/
theorem backlog_not_le : ¬ ∀ x, Reachable x → x.app.play.unread ≤ playDataMax := by
  intro h
  obtain ⟨x, hx, hunread⟩ := backlog_unbounded 501
  exact absurd (Nat.le_trans hunread (h x hx)) (by decide)

/-- Two packets arrive, and one is played. -/
theorem twoPackets_keepsUnread :
    ∃ l y, Run.Runs exec Sys.init l y ∧ y.app.play.unread = 80 ∧ ∀ e ∈ l, KeepsUnread e := by
  obtain ⟨l, y, hr, hunread, hfit⟩ := Runs.of_acts_all
    (l := [.socket Platform.silent, .socketEvent (.readInd 176), .recv (voicePacket ++ voicePacket),
      .isCmd, .isCmd, .isCmd, .audioPlayCb])
    (p := fun e => decide (FitsUnread e)) (q := fun y => decide (y.app.play.unread = 80))
    (by decide +kernel)
  exact ⟨l, y, hr, of_decide_eq_true hunread,
    (keepsUnread_iff hr).mpr fun e he => of_decide_eq_true (hfit e he)⟩

end IntercomSalve
