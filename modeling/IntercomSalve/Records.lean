/-
# `Records` — the calls that are missed during a call

A button of another channel during a call is to leave a record with the host: message 127
calls it and cancels at once, with the road of the button.  The road is not in the message
but in the markers, and the message sends one road for all of them.

So there is a record for each button exactly if each comes while no message 127 waits, and
while the host is not busy (`eachRecorded_iff`).  Two buttons before the first message are
one record too few, and one of road 0.
-/
import Mathlib.Data.List.Forall2
import IntercomSalve.Markers

namespace IntercomSalve

/-! ## Buttons and records of a run -/

/-- The server reads a call of channel `road` and its cancellation, and nothing else. -/
def SendsRecord (road : UInt8) (e : Run.Step Act Sys) : Prop :=
  serverReads (newlySent e) =
    [(0x03, [road, DialReqReqCall.call1.code] ++ e.pre.app.call.imei 0),
      (0x03, [road, DialReqReqCall.call2.code] ++ e.pre.app.call.imei 0)]

/-- The channels whose buttons are missed in a run, in order. -/
def missedRoads (l : List (Run.Step Act Sys)) : List UInt8 :=
  l.filterMap fun e => missedRoad e.act e.pre

/-- The steps that handle message 127. -/
def records (l : List (Run.Step Act Sys)) : List (Run.Step Act Sys) :=
  l.filter fun e => takesRecord e.act e.pre

/-- Each missed button has one record, and there is no other. -/
def EachRecorded (l : List (Run.Step Act Sys)) : Prop :=
  ∃ roads, List.Forall₂ SendsRecord roads (records l) ∧ roads.Perm (missedRoads l)

/-- A run in which nothing but buttons and messages 127 changes the markers, with no message 127
before the first button or after the last record. -/
structure RecordRun (x : Sys) (l : List (Run.Step Act Sys)) (y : Sys) : Prop where
  reach : Reachable x
  runs : Run.Runs exec x l y
  first : x.app.waiting = 0
  last : y.app.waiting = 0
  others : ∀ e ∈ l, missedRoad e.act e.pre = none → takesRecord e.act e.pre = false →
    e.post.app.call.markers = e.pre.app.call.markers

/-- A button is missed only while no message 127 waits, and while the host is not busy. -/
def MissedAlone (e : Run.Step Act Sys) : Prop :=
  (missedRoad e.act e.pre).isSome → e.pre.app.waiting = 0 ∧ e.pre.app.call.isHostBusy = 0

instance (e : Run.Step Act Sys) : Decidable (MissedAlone e) := by
  unfold MissedAlone
  infer_instance

theorem missedRoads_snoc (l : List (Run.Step Act Sys)) (e : Run.Step Act Sys) :
    missedRoads (l ++ [e]) = missedRoads l ++ (missedRoad e.act e.pre).toList := by
  unfold missedRoads
  rw [List.filterMap_append, List.filterMap_cons, List.filterMap_nil]
  cases missedRoad e.act e.pre <;> rfl

theorem records_snoc (l : List (Run.Step Act Sys)) (e : Run.Step Act Sys) :
    records (l ++ [e]) = records l ++ if takesRecord e.act e.pre then [e] else [] := by
  unfold records
  rw [List.filter_append, List.filter_singleton]
  cases takesRecord e.act e.pre <;> rfl

/-! ## One message -/

/-- **Message 127 sends a record of the last marked channel**, and of channel 0 when there is
none. -/
theorem Steps.sendsRecord_iff {x y : Sys} {a : Act} {road : UInt8} (h : Steps x a y)
    (hx : HandleOk x.app) (htakes : takesRecord a x = true) :
    SendsRecord road ⟨x, a, y⟩ ↔ x.app.call.marked.getLast?.getD 0 = road := by
  have hframes : ∃ io ms, a = .socket io ∧ x.app.socketMsgs = .msg127 :: ms := by
    unfold takesRecord at htakes
    split at htakes
    · next io ms hms => exact ⟨io, ms, rfl, hms⟩
    · exact nomatch htakes
  obtain ⟨io, ms, rfl, hms⟩ := hframes
  have hsent : serverReads (newlySent ⟨x, .socket io, y⟩) =
      [(0x03, [(takeMarkers x.app.call).1, DialReqReqCall.call1.code] ++ x.app.call.imei 0),
        (0x03, [(takeMarkers x.app.call).1, DialReqReqCall.call2.code] ++ x.app.call.imei 0)] := by
    have heffect : (effectOf (.socket io) x).frames =
        [ringFrame .call1 (takeMarkers x.app.call).1 (x.app.call.mailList 0),
          ringFrame .call2 (takeMarkers x.app.call).1 (x.app.call.mailList 0)] := by
      simp only [effectOf, hms]
      rfl
    rw [h.newlySent_eq hx, heffect, serverReads_flatMap]
    rfl
  unfold SendsRecord
  rw [hsent, takeMarkers_fst]
  constructor
  · intro heq
    simp only [List.cons_append, List.nil_append, List.cons.injEq, Prod.mk.injEq, true_and,
      and_true] at heq
    exact heq.1
  · rintro rfl
    rfl

/-- A missed button is one of channels 1 to 4. -/
theorem missedRoad_pos {x : Sys} {a : Act} {road : UInt8} (h : missedRoad a x = some road) :
    road ≠ 0 := by
  unfold missedRoad at h
  split at h
  · next io ms _ =>
      unfold missedButton at h
      split at h
      · next hm =>
          obtain rfl := Option.some.inj h
          have hmarker := hm.2.2.2
          unfold Call.marker at hmarker
          repeat' split at hmarker
          all_goals first | (next hk => rw [hk]; decide) | cases hmarker
      · cases h
  · cases h

theorem waiting_of_shared {s t : App} (h : t.shared = s.shared) : t.waiting = s.waiting :=
  (Leaves.of_shared h).waiting

theorem marked_of_markers {c d : Call} (h : d.markers = c.markers) : d.marked = c.marked := by
  unfold Call.marked
  rw [h]

/-! ## As many records as buttons -/

/-- The button is missed while the host is busy, and ignored. -/
def ignoresButton (e : Run.Step Act Sys) : Bool :=
  (missedRoad e.act e.pre).isSome && decide (e.pre.app.call.isHostBusy ≠ 0)

/-- Each button that is not ignored posts a message 127. -/
theorem records_count {x y : Sys} {l : List (Run.Step Act Sys)} (hr : Run.Runs exec x l y) :
    (records l).length + y.app.waiting + l.countP ignoresButton =
      x.app.waiting + (missedRoads l).length := by
  induction hr with
  | nil => simp [records, missedRoads]
  | @snoc l y z a hr he ih =>
      rw [missedRoads_snoc, records_snoc, List.countP_append, List.countP_singleton,
        List.length_append, List.length_append]
      cases (exec_eq_some.mp he).marks_cases with
      | marks hroad hbusy htakes hmarks =>
          rw [htakes, hroad, hmarks.waiting]
          simp [ignoresButton, hbusy]
          omega
      | ignored hroad hbusy htakes hshared =>
          rw [htakes, hroad, waiting_of_shared hshared]
          simp [ignoresButton, hroad, hbusy]
          omega
      | record hroad htakes _ _ hwaiting =>
          rw [htakes, hroad]
          simp [ignoresButton, hroad]
          omega
      | other hroad htakes hleaves =>
          rw [htakes, hroad, hleaves.waiting]
          simp [ignoresButton, hroad]
          omega

/-! ## Two messages that wait -/

/-- More messages 127 wait than there are channels for, or will: two of them. -/
def Crowded (s : App) : Prop := 2 ≤ s.waiting ∨ s.call.marked.length < s.waiting

/-- From there on more wait until one finds no channel that is marked. -/
theorem Crowded.step {x y : Sys} {a : Act} (hx : Crowded x.app) (h : Steps x a y)
    (hother : missedRoad a x = none → takesRecord a x = false →
      y.app.call.markers = x.app.call.markers) :
    Crowded y.app ∨ takesRecord a x = true ∧ x.app.call.marked = [] := by
  unfold Crowded at hx ⊢
  cases h.marks_cases with
  | marks _ _ _ hmarks =>
      rw [hmarks.waiting]
      exact Or.inl (Or.inl (by omega))
  | ignored _ _ _ hshared =>
      rw [waiting_of_shared hshared, show y.app.call = x.app.call from congrArg Prod.fst hshared]
      exact Or.inl hx
  | record _ htakes hmarked _ hwaiting =>
      cases hm : x.app.call.marked with
      | nil => exact Or.inr ⟨htakes, rfl⟩
      | cons m ms =>
          rw [hm, List.length_cons] at hx
          rw [hmarked, List.length_nil]
          exact Or.inl (Or.inr (by omega))
  | other hroad htakes hleaves =>
      rw [hleaves.waiting, marked_of_markers (hother hroad htakes)]
      exact Or.inl hx

/-- A button that comes while a message waits: in the end there are still two, or one of them
has found no channel. -/
theorem crowded_of_missed {x y : Sys} {l : List (Run.Step Act Sys)} (hr : Run.Runs exec x l y)
    (hothers : ∀ e ∈ l, missedRoad e.act e.pre = none → takesRecord e.act e.pre = false →
      e.post.app.call.markers = e.pre.app.call.markers)
    (hmiss : ∃ e ∈ l, (missedRoad e.act e.pre).isSome ∧ e.pre.app.call.isHostBusy = 0 ∧
      e.pre.app.waiting ≠ 0) :
    Crowded y.app ∨ ∃ e ∈ records l, e.pre.app.call.marked = [] := by
  induction hr with
  | nil => simp at hmiss
  | @snoc l y z a hr he ih =>
      have hstep := exec_eq_some.mp he
      have hrecords : ∀ e ∈ records l, e ∈ records (l ++ [⟨y, a, z⟩]) := by
        intro e hm
        rw [records_snoc]
        exact List.mem_append_left _ hm
      have hbefore : (Crowded y.app ∨ ∃ e ∈ records l, e.pre.app.call.marked = []) →
          Crowded z.app ∨ ∃ e ∈ records (l ++ [⟨y, a, z⟩]), e.pre.app.call.marked = [] := by
        rintro (hy | ⟨e, hm, hnone⟩)
        · rcases hy.step hstep (hothers ⟨y, a, z⟩ (by simp)) with hz | ⟨htakes, hnone⟩
          · exact Or.inl hz
          · refine Or.inr ⟨⟨y, a, z⟩, ?_, hnone⟩
            rw [records_snoc, if_pos htakes]
            simp
        · exact Or.inr ⟨e, hrecords e hm, hnone⟩
      obtain ⟨e, hm, hroad, hbusy, hwaiting⟩ := hmiss
      rcases List.mem_append.mp hm with hm | hm
      · exact hbefore (ih (fun e hm => hothers e (List.mem_append_left _ hm))
          ⟨e, hm, hroad, hbusy, hwaiting⟩)
      · obtain rfl := List.mem_singleton.mp hm
        dsimp only at hroad hbusy hwaiting
        cases hstep.marks_cases with
        | marks _ _ _ hmarks =>
            refine Or.inl (Or.inl ?_)
            rw [hmarks.waiting]
            omega
        | ignored _ hno _ _ => exact absurd hbusy hno
        | record hnone _ _ _ _ =>
            rw [hnone] at hroad
            exact nomatch hroad
        | other hnone _ _ =>
            rw [hnone] at hroad
            exact nomatch hroad

/-! ## One after the other -/

/-- Records of the first buttons, in order: of all, or of all but the last, whose channel is
marked. -/
def RecordedSoFar (l : List (Run.Step Act Sys)) (y : Sys) : Prop :=
  ∃ roads, List.Forall₂ SendsRecord roads (records l) ∧
    (y.app.waiting = 0 ∧ missedRoads l = roads ∨
      ∃ road, y.app.waiting = 1 ∧ y.app.call.marked = [road] ∧ missedRoads l = roads ++ [road])

theorem recordedSoFar_of_alone {x y : Sys} {l : List (Run.Step Act Sys)} (hx : Reachable x)
    (hr : Run.Runs exec x l y) (hfirst : x.app.waiting = 0)
    (hothers : ∀ e ∈ l, missedRoad e.act e.pre = none → takesRecord e.act e.pre = false →
      e.post.app.call.markers = e.pre.app.call.markers)
    (halone : ∀ e ∈ l, MissedAlone e) : RecordedSoFar l y := by
  induction hr with
  | nil => exact ⟨[], .nil, Or.inl ⟨hfirst, rfl⟩⟩
  | @snoc l y z a hr he ih =>
      have hstep := exec_eq_some.mp he
      have hy : Reachable y := hx.runs hr
      obtain ⟨roads, hsent, hnow⟩ := ih (fun e hm => hothers e (List.mem_append_left _ hm))
        fun e hm => halone e (List.mem_append_left _ hm)
      have hlast : MissedAlone ⟨y, a, z⟩ := halone _ (by simp)
      unfold RecordedSoFar
      rw [missedRoads_snoc, records_snoc]
      cases hstep.marks_cases with
      | @marks road hroad hbusy htakes hmarks =>
          have h0 : y.app.waiting = 0 := (hlast (by rw [hroad]; rfl)).1
          have hnone : y.app.call.marked = [] := by
            have hle := hy.markersOk.marked_le
            rw [h0] at hle
            exact List.length_eq_zero_iff.mp (Nat.le_zero.mp hle)
          have hperm := hmarks.marked
          rw [hnone] at hperm
          rcases hnow with ⟨-, hroads⟩ | ⟨-, h1, -⟩
          · refine ⟨roads, by simpa [htakes] using hsent, Or.inr ⟨road, ?_, ?_, ?_⟩⟩
            · rw [hmarks.waiting, h0]
            · exact List.perm_singleton.mp hperm
            · rw [hroad, hroads]
              rfl
          · omega
      | ignored hroad hbusy _ _ => exact absurd (hlast (by rw [hroad]; rfl)).2 hbusy
      | record hroad htakes hmarked _ hwaiting =>
          rcases hnow with ⟨h0, -⟩ | ⟨road, h1, hone, hroads⟩
          · omega
          · have hsends : SendsRecord road ⟨y, a, z⟩ := by
              rw [hstep.sendsRecord_iff hy.handleOk htakes, hone]
              rfl
            refine ⟨roads ++ [road], ?_, Or.inl ⟨by omega, ?_⟩⟩
            · rw [if_pos htakes]
              exact List.rel_append hsent (.cons hsends .nil)
            · rw [hroad, hroads, Option.toList_none, List.append_nil]
      | other hroad htakes hleaves =>
          rw [hroad, hleaves.waiting, marked_of_markers (hothers ⟨y, a, z⟩ (by simp) hroad htakes)]
          refine ⟨roads, by simpa [htakes] using hsent, ?_⟩
          simpa using hnow

/-! ## Every button -/

/-- A message that finds no channel marked sends a record of channel 0. -/
theorem EachRecorded.marked {x y : Sys} {l : List (Run.Step Act Sys)} (h : EachRecorded l)
    (hx : Reachable x) (hr : Run.Runs exec x l y) :
    ∀ e ∈ records l, e.pre.app.call.marked ≠ [] := by
  obtain ⟨roads, hsent, hperm⟩ := h
  have hroad : ∀ (rs : List UInt8) (es : List (Run.Step Act Sys)), List.Forall₂ SendsRecord rs es →
      ∀ e ∈ es, ∃ road ∈ rs, SendsRecord road e := by
    intro rs es h
    induction h with
    | nil => exact fun e he => absurd he List.not_mem_nil
    | @cons road e rs es hsends _ ih =>
        intro e' he'
        rcases List.mem_cons.mp he' with rfl | he'
        · exact ⟨road, List.mem_cons_self, hsends⟩
        · obtain ⟨road', hmem, hsends'⟩ := ih e' he'
          exact ⟨road', List.mem_cons_of_mem _ hmem, hsends'⟩
  intro e he hnone
  obtain ⟨hel, htakes⟩ := List.mem_filter.mp he
  obtain ⟨road, hmem, hsends⟩ := hroad _ _ hsent e he
  obtain ⟨hpre, hexec⟩ := hr.steps e hel
  have hhandle : HandleOk e.pre.app := by
    obtain ⟨l', hl'⟩ := hpre
    exact Reachable.handleOk (hx.runs hl')
  have hzero : 0 = road := by
    have := ((exec_eq_some.mp hexec).sendsRecord_iff hhandle htakes).mp hsends
    rwa [hnone] at this
  have hmissed : road ∈ missedRoads l := hperm.mem_iff.mp hmem
  obtain ⟨e', -, hroad'⟩ := List.mem_filterMap.mp hmissed
  exact missedRoad_pos hroad' hzero.symm

/-- **Every missed button has its record**, and there is no other, exactly if each comes while no
message 127 waits and the host is not busy. -/
theorem eachRecorded_iff {x y : Sys} {l : List (Run.Step Act Sys)} (h : RecordRun x l y) :
    EachRecorded l ↔ ∀ e ∈ l, MissedAlone e := by
  have hlast := h.last
  have hfirst := h.first
  constructor
  · intro hrec e he hroad
    have hbusy : e.pre.app.call.isHostBusy = 0 := by
      have hcount := records_count h.runs
      obtain ⟨roads, hsent, hperm⟩ := hrec
      have hlen : (records l).length = (missedRoads l).length := by
        rw [← hsent.length_eq, hperm.length_eq]
      have hzero : l.countP ignoresButton = 0 := by omega
      have hno := List.countP_eq_zero.mp hzero e he
      unfold ignoresButton at hno
      rw [hroad, Bool.true_and, decide_eq_true_eq] at hno
      exact not_not.mp hno
    refine ⟨?_, hbusy⟩
    by_contra hwaiting
    rcases crowded_of_missed h.runs h.others ⟨e, he, hroad, hbusy, hwaiting⟩ with hy | ⟨e', he', hnone⟩
    · unfold Crowded at hy
      omega
    · exact hrec.marked h.reach h.runs e' he' hnone
  · intro halone
    obtain ⟨roads, hsent, ⟨-, hroads⟩ | ⟨road, h1, -⟩⟩ :=
      recordedSoFar_of_alone h.reach h.runs h.first h.others halone
    · exact ⟨roads, hsent, hroads ▸ List.Perm.refl _⟩
    · omega

/-- A test of `RecordRun` from power-on. -/
def recordRunTest (l : List (Run.Step Act Sys)) (y : Sys) : Bool :=
  decide (y.app.waiting = 0) && l.all fun e =>
    decide (missedRoad e.act e.pre = none → takesRecord e.act e.pre = false →
      e.post.app.call.markers = e.pre.app.call.markers)

theorem recordRun_of_test {l : List (Run.Step Act Sys)} {y : Sys}
    (hr : Run.Runs exec Sys.init l y) (h : recordRunTest l y = true) : RecordRun Sys.init l y := by
  unfold recordRunTest at h
  rw [Bool.and_eq_true, List.all_eq_true] at h
  exact ⟨.refl _, hr, rfl, of_decide_eq_true h.1, fun e he => of_decide_eq_true (h.2 e he)⟩

/-- Channel 1 is called, the button of channel 2 pressed, its record sent, and then the same for
channel 3. -/
theorem oneByOne_eachRecorded :
    ∃ x l y, RecordRun x l y ∧ missedRoads l = [0x32, 0x33] ∧ EachRecorded l := by
  obtain ⟨l, y, hr, hq⟩ := Runs.of_acts_test
    (l := buttonActs hostsFrame ++ readButton 2 ++ [.socket Platform.silent] ++ readButton 3 ++
      [.socket Platform.silent])
    (q := fun l y => recordRunTest l y && decide (missedRoads l = [0x32, 0x33]) &&
      l.all fun e => decide (MissedAlone e))
    (by decide +kernel)
  rw [Bool.and_eq_true, Bool.and_eq_true, List.all_eq_true] at hq
  have hrun := recordRun_of_test hr hq.1.1
  exact ⟨_, l, y, hrun, of_decide_eq_true hq.1.2,
    (eachRecorded_iff hrun).mpr fun e he => of_decide_eq_true (hq.2 e he)⟩

/-- Both buttons are pressed before the first message is handled: the second message finds no
channel. -/
theorem bothAtOnce_not_eachRecorded :
    ∃ x l y, RecordRun x l y ∧ missedRoads l = [0x32, 0x33] ∧ ¬ EachRecorded l := by
  obtain ⟨l, y, hr, hq⟩ := Runs.of_acts_test
    (l := buttonActs hostsFrame ++ readButton 2 ++ readButton 3 ++
      [.socket Platform.silent, .socket Platform.silent])
    (q := fun l y => recordRunTest l y && decide (missedRoads l = [0x32, 0x33]) &&
      (records l).any fun e => decide (e.pre.app.call.marked = []))
    (by decide +kernel)
  rw [Bool.and_eq_true, Bool.and_eq_true, List.any_eq_true] at hq
  obtain ⟨⟨hrun, hroads⟩, e, he, hnone⟩ := hq
  refine ⟨_, l, y, recordRun_of_test hr hrun, of_decide_eq_true hroads, fun h => ?_⟩
  exact h.marked (.refl _) hr e he (of_decide_eq_true hnone)

end IntercomSalve
