/-
# `HangUp` — the end of an incoming call by its peer

A hang-up frame carries the IMEI of the one who hangs up, and nothing looks at it.
What decides is `mail_list_id`: one bit, set by every call request that finds the
device busy and taken back by the next hang-up, whoever sends it.  The bit is a
question about the events before (`mailListId_iff`), so the hang-ups of a run do what
their IMEI says exactly if the IMEI agrees with that history at each of them
(`hangUps_iff`).
-/
import IntercomSalve.CallState

namespace IntercomSalve

/-- The next pass reads a hang-up, in an incoming call without a broadcast. -/
structure HangUpInCall (e : Run.Step Act Sys) : Prop where
  act : e.act = .isCmd
  code : readsCode e.pre .instruction5 DialReqReqCall.call2.code ∨
    readsCode e.pre .instruction5 DialReqReqCall.call4.code
  called : e.pre.operation = 5
  single : e.pre.app.call.isMailListALL = 0

/-- The frame at the cursor carries the IMEI of the peer of the call. -/
def namesPeer (x : Sys) : Prop := (x.app.rx.bytesAt 10).slice 0 15 = x.app.call.imei 3

instance (x : Sys) : Decidable (namesPeer x) := by unfold namesPeer; infer_instance

/-- The hang-up of the peer ends the call, and that of another one leaves it. -/
def HangUpEnds (e : Run.Step Act Sys) : Prop :=
  HangUpInCall e →
    (namesPeer e.pre → e.post.operation = 0) ∧
      (¬ namesPeer e.pre → e.post.operation = e.pre.operation)

/-- Whether a caller waits after an event, if `waits` says it before. -/
def Event.waits (waits : Bool) : Event → Bool
  | marked => true
  | unmarked | accepted | answered | timedOut | idleHeartbeat => false
  | _ => waits

/-- Some caller found the device busy, and nothing has taken that back. -/
def someoneWaits (es : List Event) : Bool := es.foldl Event.waits false

/-- An event of the run and the marker. -/
theorem Event.after_mailListId (e : Event) (s : Session) (waits : Bool)
    (h : s.mailListId ≠ 0 ↔ waits = true) :
    (e.after s).mailListId ≠ 0 ↔ e.waits waits = true := by
  cases e with
  | marked | unmarked | accepted | answered | timedOut | idleHeartbeat =>
      simp [after, Event.waits]
  | _ => exact h

/-- **The marker is a question about the events before.** -/
theorem mailListId_iff {l : List (Run.Step Act Sys)} {y : Sys}
    (hr : Run.Runs exec Sys.init l y) :
    y.app.call.mailListId ≠ 0 ↔ someoneWaits (eventsOf l) = true := by
  induction hr with
  | nil => simp [someoneWaits, eventsOf, Sys.init, App.init]
  | @snoc l y z a hr he ih =>
      have hid : z.app.call.mailListId = ((eventOf a y).after y.app.session).mailListId :=
        congrArg Session.mailListId (exec_eq_some.mp he).session_eq
      rw [hid, (eventOf a y).after_mailListId _ _ ih]
      simp only [someoneWaits, eventsOf, List.map_append, List.foldl_append, List.map_cons,
        List.map_nil, List.foldl_cons, List.foldl_nil]

/-- What a hang-up does: it takes the marker back, or ends the call. -/
theorem HangUpInCall.operation_eq {x y : Sys} {a : Act} (h : HangUpInCall ⟨x, a, y⟩)
    (hs : Steps x a y) :
    y.operation = if x.app.call.mailListId ≠ 0 then 5 else 0 := by
  obtain ⟨hact, hcode, h5, hall⟩ := h
  obtain rfl : a = .isCmd := hact
  have hev : eventOf .isCmd x = if x.app.call.mailListId ≠ 0 then .unmarked else .ended := by
    have hall' : ¬ x.app.call.isMailListALL ≠ 0 := not_not.mpr hall
    rcases hcode with ⟨hc, hb⟩ | ⟨hc, hb⟩
    · rw [eventOf_isCmd hc, frameEvent, calledEvent, if_neg hall',
        DialReqReqCall.ofCode_eq_some.mpr hb]
    · rw [eventOf_isCmd hc, frameEvent, calledEvent, if_neg hall',
        DialReqReqCall.ofCode_eq_some.mpr hb]
  rw [hs.operation_eq, hev]
  split
  · exact h5
  · rfl

/-- One hang-up does what its IMEI says, exactly if the marker agrees with it. -/
theorem hangUpEnds_iff {x y : Sys} {a : Act} (hs : Steps x a y) :
    HangUpEnds ⟨x, a, y⟩ ↔
      (HangUpInCall ⟨x, a, y⟩ → (namesPeer x ↔ x.app.call.mailListId = 0)) := by
  constructor
  · intro h hin
    obtain ⟨hpeer, hother⟩ := h hin
    have hop := hin.operation_eq hs
    constructor
    · intro hp
      by_contra hid
      rw [if_pos hid] at hop
      exact absurd (hop.symm.trans (hpeer hp)) (by decide)
    · intro hid
      by_contra hp
      rw [if_neg (not_not.mpr hid)] at hop
      exact absurd (hop.symm.trans ((hother hp).trans hin.called)) (by decide)
  · intro h hin
    have hop := hin.operation_eq hs
    constructor
    · intro hp
      rw [if_neg (not_not.mpr ((h hin).mp hp))] at hop
      exact hop
    · intro hp
      rw [if_pos fun hid => hp ((h hin).mpr hid)] at hop
      exact hop.trans hin.called.symm

/-- **Hang-ups.**  In a run from power-on every hang-up in an incoming call does what its
IMEI says, exactly if each comes from the peer just when no caller is waiting. -/
theorem hangUps_iff {l : List (Run.Step Act Sys)} {y : Sys} (hr : Run.Runs exec Sys.init l y) :
    (∀ e ∈ l, HangUpEnds e) ↔
      ∀ l₁ e l₂, l = l₁ ++ e :: l₂ → HangUpInCall e →
        (namesPeer e.pre ↔ someoneWaits (eventsOf l₁) = false) := by
  have hmark : ∀ l₁ e l₂, l = l₁ ++ e :: l₂ → Steps e.pre e.act e.post ∧
      (e.pre.app.call.mailListId = 0 ↔ someoneWaits (eventsOf l₁) = false) := by
    intro l₁ e l₂ hl
    obtain ⟨hpre, hexec⟩ := hr.before hl
    refine ⟨exec_eq_some.mp hexec, ?_⟩
    rw [← not_iff_not, Bool.not_eq_false]
    exact mailListId_iff hpre
  constructor
  · intro h l₁ e l₂ hl hin
    obtain ⟨hs, hid⟩ := hmark l₁ e l₂ hl
    rw [← hid]
    exact (hangUpEnds_iff hs).mp (h e (by simp [hl])) hin
  · intro h e he
    obtain ⟨l₁, l₂, hl⟩ := List.append_of_mem he
    obtain ⟨hs, hid⟩ := hmark l₁ e l₂ hl
    refine (hangUpEnds_iff hs).mpr fun hin => ?_
    rw [hid]
    exact h l₁ e l₂ hl hin

/-- A call request or a hang-up, with the IMEI `ddd…d`. -/
def peerFrame (code d : UInt8) : List UInt8 :=
  [0xAA, 0xFA, 0x00, 0x00, 0x01, 0x05, 0x00, 0x11, 0x31, code] ++ List.replicate 15 d

/-- A call and its hang-up: the call is over. -/
theorem answeredCall_hangUps :
    ∃ l y, Run.Runs exec Sys.init l y ∧ y.operation = 0 ∧
      ((∀ e ∈ l, HangUpEnds e) ↔
        ∀ l₁ e l₂, l = l₁ ++ e :: l₂ → HangUpInCall e →
          (namesPeer e.pre ↔ someoneWaits (eventsOf l₁) = false)) := by
  have hr := Runs.of_acts (l := [.socketEvent (.readInd 50), .socket Platform.silent,
    .recv (peerFrame 0x31 0x37 ++ peerFrame 0x32 0x37)] ++ List.replicate 19 .isCmd) rfl
  exact ⟨_, _, hr, rfl, hangUps_iff hr⟩

/-- A second caller is told nothing; then the peer hangs up, and the call goes on. -/
theorem secondCaller_not_hangUps :
    ∃ l y, Run.Runs exec Sys.init l y ∧ ¬ ∀ e ∈ l, HangUpEnds e := by
  have hr := Runs.of_acts (l := [.socketEvent (.readInd 75), .socket Platform.silent,
    .recv (peerFrame 0x31 0x37 ++ peerFrame 0x31 0x38 ++ peerFrame 0x32 0x37)] ++
      List.replicate 20 .isCmd) rfl
  refine ⟨_, _, hr, fun h => ?_⟩
  have hlast := h _ (List.mem_of_getElem? (i := 22) rfl)
    ⟨rfl, Or.inl ⟨by decide, by decide⟩, by decide, by decide⟩
  exact absurd (hlast.1 (by decide)) (by decide)

end IntercomSalve
