/-
# `Settling` — how far the encoder is off, and how it comes to rest

`ADPCM_Encode` takes the difference between the sample and `predsample` apart into
a step, a half and a quarter of it, and adds an eighth in any case.  `quantised` is
what comes out.  It is off by at most an eighth of the step and 2 when the difference
is below two steps, and too small otherwise (`adpcmEncode_error`); the clamp of
`predsample` only helps.

On a constant the difference goes through three phases: while it is two steps or
more the index rises by 8; then it is below one step and stays there while the index
falls; and at the smallest step what is left disappears (`constant_settles`).
-/
import IntercomSalve.Codec
import IntercomSalve.Lib.Settle

namespace IntercomSalve

/-! ## What the code stands for -/

/-- What is left of a difference `d` after the bit for the whole step. -/
def afterStep (step d : Int) : Int := if step ≤ d then d - step else d

/-- What is left of it after the bit for the half. -/
def afterHalf (step d : Int) : Int :=
  if step / 2 ≤ afterStep step d then afterStep step d - step / 2 else afterStep step d

/-- What the encoder makes of a difference `d` that is not negative. -/
def quantised (step d : Int) : Int :=
  step / 8 + (if step ≤ d then step else 0) + (if step / 2 ≤ afterStep step d then step / 2 else 0) +
    (if step / 2 / 2 ≤ afterHalf step d then step / 4 else 0)

/-- A difference below two steps: off by an eighth of the step and 2. -/
theorem quantised_near {step d : Int} (h0 : 0 ≤ d) (hd : d < 2 * step) :
    d - quantised step d ≤ step / 8 + 2 ∧ quantised step d - d ≤ step / 8 + 2 := by
  have hstep : 0 ≤ afterStep step d ∧ afterStep step d < step := by
    unfold afterStep
    split <;> omega
  have hhalf : 0 ≤ afterHalf step d ∧ afterHalf step d + step / 2 < step := by
    unfold afterHalf
    split <;> omega
  have hrest : quantised step d = d - afterHalf step d + step / 8 +
      (if step / 2 / 2 ≤ afterHalf step d then step / 4 else 0) := by
    unfold quantised afterHalf afterStep
    split <;> split <;> split <;> omega
  rw [hrest]
  split <;> omega

/-- A difference of two steps or more: every bit is set, and it is not enough. -/
theorem quantised_far {step d : Int} (hs : 7 ≤ step) (hd : 2 * step ≤ d) :
    step ≤ quantised step d ∧ quantised step d < d := by
  have hstep : afterStep step d = d - step := if_pos (by omega)
  have hhalf : afterHalf step d = d - step - step / 2 := by
    unfold afterHalf
    rw [hstep]
    exact if_pos (by omega)
  unfold quantised
  rw [hstep, hhalf, if_pos (by omega), if_pos (by omega), if_pos (by omega)]
  omega

/-- The sample that the encoder arrives at. -/
theorem adpcmEncode_predsample (v : Int) (st : Adpcm) :
    (adpcmEncode v st).2.predsample =
      clampSample (if v < st.predsample then
        st.predsample - quantised st.step (st.predsample - v)
        else st.predsample + quantised st.step (v - st.predsample)) := by
  have hdiff : ∀ d : Int,
      (if afterHalf st.step d ≥ st.step / 2 / 2 then
        (if afterStep st.step d ≥ st.step / 2 then
          (if d ≥ st.step then st.step / 8 + st.step else st.step / 8) + st.step / 2
          else if d ≥ st.step then st.step / 8 + st.step else st.step / 8) + st.step / 4
        else if afterStep st.step d ≥ st.step / 2 then
          (if d ≥ st.step then st.step / 8 + st.step else st.step / 8) + st.step / 2
          else if d ≥ st.step then st.step / 8 + st.step else st.step / 8) =
        quantised st.step d := by
    intro d
    unfold quantised
    split <;> split <;> split <;> omega
  by_cases hv : v < st.predsample
  · have hneg : v - st.predsample < 0 := by omega
    have habs : st.predsample - v = -(v - st.predsample) := by omega
    rw [if_pos hv, habs, ← hdiff]
    unfold adpcmEncode
    simp only [if_pos hneg]
    rfl
  · have hneg : ¬ v - st.predsample < 0 := by omega
    rw [if_neg hv, ← hdiff]
    unfold adpcmEncode
    simp only [if_neg hneg]
    rfl

/-! ## How far the encoder is off -/

/-- The difference between the sample and `predsample`. -/
def Adpcm.error (v : Int) (st : Adpcm) : Int := v - st.predsample

/-- Towards a sample in range the clamp brings `predsample` nearer, and it does nothing to a
value that has not passed the sample. -/
theorem clampSample_error {v x : Int} (h1 : -32768 ≤ v) (h2 : v ≤ 32767) :
    0 ≤ v - clampSample x ∧ v - clampSample x ≤ v - x ∨
      v - clampSample x ≤ 0 ∧ v - x ≤ v - clampSample x := by
  unfold clampSample
  split
  · omega
  · split <;> omega

/-- The difference after one call is no larger than that between the difference before and what
the code stands for; and where the code is not enough, it is the latter. -/
theorem adpcmEncode_off {v : Int} {st : Adpcm} (hst : CodecOk st) (h1 : -32768 ≤ v)
    (h2 : v ≤ 32767) :
    ((adpcmEncode v st).2.error v).natAbs ≤
        ((st.error v).natAbs - quantised st.step (st.error v).natAbs).natAbs ∧
      (0 ≤ quantised st.step (st.error v).natAbs →
        quantised st.step (st.error v).natAbs < (st.error v).natAbs →
        ((adpcmEncode v st).2.error v).natAbs =
            (st.error v).natAbs - quantised st.step (st.error v).natAbs ∧
          ((adpcmEncode v st).2.error v).sign = (st.error v).sign) := by
  obtain ⟨-, -, hp1, hp2⟩ := hst
  unfold Adpcm.error
  rw [adpcmEncode_predsample]
  by_cases hv : v < st.predsample
  · have habs : ((v - st.predsample).natAbs : Int) = st.predsample - v := by omega
    rw [if_pos hv, habs]
    generalize hq : quantised st.step (st.predsample - v) = q
    have hclamp := clampSample_error (x := st.predsample - q) h1 h2
    refine ⟨by omega, ?_⟩
    intro h0 hlt
    rw [clampSample_of_range (by omega) (by omega), Int.sign_eq_neg_one_of_neg (by omega),
      Int.sign_eq_neg_one_of_neg (by omega)]
    omega
  · have habs : ((v - st.predsample).natAbs : Int) = v - st.predsample := by omega
    rw [if_neg hv, habs]
    generalize hq : quantised st.step (v - st.predsample) = q
    have hclamp := clampSample_error (x := st.predsample + q) h1 h2
    refine ⟨by omega, ?_⟩
    intro h0 hlt
    rw [clampSample_of_range (by omega) (by omega), Int.sign_eq_one_of_pos (by omega),
      Int.sign_eq_one_of_pos (by omega)]
    omega

/-- Below two steps. -/
theorem adpcmEncode_near {v : Int} {st : Adpcm} (hst : CodecOk st) (h1 : -32768 ≤ v)
    (h2 : v ≤ 32767) (hnear : ((st.error v).natAbs : Int) < 2 * st.step) :
    (((adpcmEncode v st).2.error v).natAbs : Int) ≤ st.step / 8 + 2 := by
  have hoff := (adpcmEncode_off hst h1 h2).1
  have hq := quantised_near (Int.natCast_nonneg _) hnear
  omega

/-- At two steps and above. -/
theorem adpcmEncode_far {v : Int} {st : Adpcm} (hst : CodecOk st) (h1 : -32768 ≤ v)
    (h2 : v ≤ 32767) (hfar : 2 * st.step ≤ ((st.error v).natAbs : Int)) :
    (((adpcmEncode v st).2.error v).natAbs : Int) ≤ (st.error v).natAbs - st.step ∧
      ((adpcmEncode v st).2.error v).sign = (st.error v).sign := by
  have hs := hst.step_range.1
  obtain ⟨hge, hlt⟩ := quantised_far hs hfar
  obtain ⟨heq, hsign⟩ := (adpcmEncode_off hst h1 h2).2 (by omega) hlt
  exact ⟨by omega, hsign⟩

/-- **The error of one call.**  Below two steps it is at most an eighth of the step and 2; at
two steps and above it shrinks without changing its sign. -/
theorem adpcmEncode_error {v : Int} {st : Adpcm} (hst : CodecOk st) (h1 : -32768 ≤ v)
    (h2 : v ≤ 32767) :
    (((st.error v).natAbs : Int) < 2 * st.step →
        (((adpcmEncode v st).2.error v).natAbs : Int) ≤ st.step / 8 + 2) ∧
      (¬ ((st.error v).natAbs : Int) < 2 * st.step →
        ((adpcmEncode v st).2.error v).natAbs < (st.error v).natAbs ∧
          ((adpcmEncode v st).2.error v).sign = (st.error v).sign) := by
  refine ⟨adpcmEncode_near hst h1 h2, ?_⟩
  intro hfar
  have hs := hst.step_range.1
  obtain ⟨hle, hsign⟩ := adpcmEncode_far hst h1 h2 (Int.not_lt.mp hfar)
  exact ⟨by omega, hsign⟩

/-- A state that is off by less than one step: the worst of the first ones. -/
theorem firstSample_error :
    (((adpcmEncode 6 ⟨0, 0⟩).2.error 6).natAbs : Int) ≤ Adpcm.step ⟨0, 0⟩ / 8 + 2 :=
  (adpcmEncode_error ⟨by decide, by decide, by decide, by decide⟩ (by decide) (by decide)).1
    (by decide)

/-! ## How the index moves -/

/-- With every bit set the index rises by 8. -/
theorem adpcmEncode_index_far {v : Int} {st : Adpcm} (hst : CodecOk st)
    (hfar : 2 * st.step ≤ ((st.error v).natAbs : Int)) :
    (adpcmEncode v st).2.index = clampIndex (st.index + 8) := by
  have hs := hst.step_range.1
  have hcode : (adpcmEncode v st).1 = 7 ∨ (adpcmEncode v st).1 = 15 := by
    let d := if v - st.predsample < 0 then -(v - st.predsample) else v - st.predsample
    have hd : 2 * st.step ≤ d := by
      simp only [d]
      unfold Adpcm.error at hfar
      split <;> omega
    have heq : (adpcmEncode v st).1 = (if v - st.predsample < 0 then 8 else 0) +
        (if d ≥ st.step then 4 else 0) + (if afterStep st.step d ≥ st.step / 2 then 2 else 0) +
        (if afterHalf st.step d ≥ st.step / 2 / 2 then 1 else 0) := rfl
    have hstep : afterStep st.step d = d - st.step := if_pos (by omega)
    have hhalf : afterHalf st.step d = d - st.step - st.step / 2 := by
      unfold afterHalf
      rw [hstep]
      exact if_pos (by omega)
    rw [heq, hstep, hhalf]
    by_cases hv : v - st.predsample < 0
    · rw [if_pos hv, if_pos (by omega), if_pos (by omega), if_pos (by omega)]
      exact Or.inr rfl
    · rw [if_neg hv, if_pos (by omega), if_pos (by omega), if_pos (by omega)]
      exact Or.inl rfl
  have hindex : (adpcmEncode v st).2.index =
      clampIndex (st.index + indexTable.getD (adpcmEncode v st).1 0) := rfl
  rw [hindex]
  rcases hcode with h | h
  · rw [h]
    rfl
  · rw [h]
    rfl

/-- Below one step it falls by 1. -/
theorem adpcmEncode_index_near {v : Int} {st : Adpcm} (hnear : ((st.error v).natAbs : Int) < st.step) :
    (adpcmEncode v st).2.index = clampIndex (st.index - 1) := by
  have htable : ∀ code < 16, ¬ 4 ≤ code % 8 → indexTable.getD code 0 = -1 := by decide
  have hcode : ¬ 4 ≤ (adpcmEncode v st).1 % 8 := by
    rw [(adpcmEncode_bits v st).2]
    unfold Adpcm.error at hnear
    omega
  show clampIndex (st.index + indexTable.getD (adpcmEncode v st).1 0) = _
  rw [htable _ (adpcmEncode_spec v st).1 hcode]
  rfl

/-- It never falls by more. -/
theorem adpcmEncode_index_ge (v : Int) {st : Adpcm} (hst : CodecOk st) :
    st.index - 1 ≤ (adpcmEncode v st).2.index := by
  have htable : ∀ code < 16, -1 ≤ indexTable.getD code 0 := by decide
  have hge := htable _ (adpcmEncode_spec v st).1
  have hle := hst.index_le
  have hindex : (adpcmEncode v st).2.index =
      clampIndex (st.index + indexTable.getD (adpcmEncode v st).1 0) := rfl
  rw [hindex]
  unfold clampIndex
  split
  · omega
  · split <;> omega

/-- Neighbouring steps are so close that an eighth of one, and 2, is below the other. -/
theorem stepSizeTable_eighth :
    ∀ i < 89, stepSizeTable.getD i 0 / 8 + 2 < stepSizeTable.getD (i - 1) 0 := by
  decide +kernel

theorem CodecOk.step_eighth {st st' : Adpcm} (h : CodecOk st) (h' : CodecOk st')
    (hindex : st.index - 1 ≤ st'.index) : st.step / 8 + 2 < st'.step := by
  have h0 := h.index_nonneg
  have h1 := h.index_le
  have htable := stepSizeTable_eighth st.index.toNat (by omega)
  have hprev : CodecOk { st with index := ((st.index.toNat - 1 : Nat) : Int) } :=
    ⟨by simp, by simp only; omega, h.predsample_ge, h.predsample_le⟩
  have hle : stepSizeTable.getD (st.index.toNat - 1) 0 ≤ st'.step := by
    by_cases heq : st'.index = ((st.index.toNat - 1 : Nat) : Int)
    · have hnat : st'.index.toNat = st.index.toNat - 1 := by omega
      exact Int.le_of_eq (by rw [Adpcm.step, hnat])
    · have h0' := h'.index_nonneg
      have hlt := (hprev.step_lt h' (by simp only; omega)).1
      exact Int.le_of_lt hlt
  exact Int.lt_of_lt_of_le htable hle

/-! ## The three phases -/

/-- `ADPCM_Encode (v)`, for the state it leaves. -/
def encodeAgain (v : Int) (st : Adpcm) : Adpcm := (adpcmEncode v st).2

/-- The difference is two steps or more: it takes eleven calls to get to the largest step, and
one more there. -/
theorem overload_ends {v : Int} {st : Adpcm} (hst : CodecOk st) (h1 : -32768 ≤ v)
    (h2 : v ≤ 32767) :
    Settle.Within (encodeAgain v) 12
      (fun y => CodecOk y ∧ ((y.error v).natAbs : Int) < 2 * y.step) st := by
  let μ : Adpcm → Nat := fun y =>
    if ((y.error v).natAbs : Int) < 2 * y.step then 0 else (95 - y.index).toNat / 8 + 1
  have hstep : ∀ y, CodecOk y → ¬ ((y.error v).natAbs : Int) < 2 * y.step →
      CodecOk (encodeAgain v y) ∧ μ (encodeAgain v y) < μ y := by
    intro y hy hfar
    have hok : CodecOk (encodeAgain v y) := adpcmEncode_ok v y
    refine ⟨hok, ?_⟩
    have hμ : μ y = (95 - y.index).toNat / 8 + 1 := if_neg hfar
    have hindex : (encodeAgain v y).index = clampIndex (y.index + 8) :=
      adpcmEncode_index_far hy (Int.not_lt.mp hfar)
    have hle : (((encodeAgain v y).error v).natAbs : Int) ≤ (y.error v).natAbs - y.step :=
      (adpcmEncode_far hy h1 h2 (Int.not_lt.mp hfar)).1
    obtain ⟨hi0, hi1, hp1, hp2⟩ := hy
    by_cases htop : y.index = 88
    · -- the largest step, and any difference is below three of them
      have htop' : (encodeAgain v y).index = 88 := by
        rw [hindex, htop]
        rfl
      have hs : y.step = 32767 := by
        unfold Adpcm.step
        rw [htop]
        rfl
      have hs' : (encodeAgain v y).step = 32767 := by
        unfold Adpcm.step
        rw [htop']
        rfl
      have hnear : (((encodeAgain v y).error v).natAbs : Int) < 2 * (encodeAgain v y).step := by
        have herr : ((y.error v).natAbs : Int) ≤ 65535 := by
          unfold Adpcm.error
          omega
        omega
      have hμ' : μ (encodeAgain v y) = 0 := if_pos hnear
      omega
    · have hμ' : μ (encodeAgain v y) ≤ (95 - (encodeAgain v y).index).toNat / 8 + 1 := by
        simp only [μ]
        split
        · exact Nat.zero_le _
        · exact Nat.le_refl _
      have hrise : (encodeAgain v y).index = y.index + 8 ∨ (encodeAgain v y).index = 88 := by
        rw [hindex]
        unfold clampIndex
        split
        · omega
        · split <;> omega
      omega
  have hμ : μ st ≤ 12 := by
    have hi0 := hst.index_nonneg
    simp only [μ]
    split
    · exact Nat.zero_le _
    · omega
  exact (Settle.Within.of_measure CodecOk μ hstep hst).mono hμ

/-- Below two steps, the next difference is below one. -/
theorem near_locks {v : Int} {st : Adpcm} (hst : CodecOk st) (h1 : -32768 ≤ v) (h2 : v ≤ 32767)
    (hnear : ((st.error v).natAbs : Int) < 2 * st.step) :
    (((encodeAgain v st).error v).natAbs : Int) < (encodeAgain v st).step :=
  Int.lt_of_le_of_lt (adpcmEncode_near hst h1 h2 hnear)
    (hst.step_eighth (adpcmEncode_ok v st) (adpcmEncode_index_ge v hst))

/-- The difference is below one step, and stays so while the index falls. -/
theorem index_falls {v : Int} {st : Adpcm} (hst : CodecOk st) (h1 : -32768 ≤ v) (h2 : v ≤ 32767)
    (hlocked : ((st.error v).natAbs : Int) < st.step) :
    Settle.Within (encodeAgain v) 88
      (fun y => (CodecOk y ∧ ((y.error v).natAbs : Int) < y.step) ∧ y.index = 0) st := by
  have hstep : ∀ y, CodecOk y ∧ ((y.error v).natAbs : Int) < y.step → ¬ y.index = 0 →
      (CodecOk (encodeAgain v y) ∧
        (((encodeAgain v y).error v).natAbs : Int) < (encodeAgain v y).step) ∧
        (encodeAgain v y).index.toNat < y.index.toNat := by
    rintro y ⟨hy, hlt⟩ hne
    have hs := hy.step_range.1
    have hi0 := hy.index_nonneg
    have hi1 := hy.index_le
    have hindex : (encodeAgain v y).index = clampIndex (y.index - 1) := adpcmEncode_index_near hlt
    have hclamp : clampIndex (y.index - 1) = y.index - 1 := by
      unfold clampIndex
      rw [if_neg (by omega), if_neg (by omega)]
    exact ⟨⟨adpcmEncode_ok v y, near_locks hy h1 h2 (by omega)⟩, by omega⟩
  have hi1 := hst.index_le
  exact (Settle.Within.of_measure _ (fun y => y.index.toNat) hstep ⟨hst, hlocked⟩).mono
    (by omega)

/-- At the smallest step every call makes the difference smaller. -/
theorem quantised_smallest : ∀ d : Nat, 0 < d → d < 7 → ((d : Int) - quantised 7 d).natAbs < d := by
  intro d h0 h7
  have hall : ∀ d : Nat, d < 7 → 0 < d → ((d : Int) - quantised 7 d).natAbs < d := by decide
  exact hall d h7 h0

/-- At the smallest step what is left disappears. -/
theorem error_disappears {v : Int} {st : Adpcm} (hst : CodecOk st) (h1 : -32768 ≤ v)
    (h2 : v ≤ 32767) (hindex : st.index = 0) (hlocked : ((st.error v).natAbs : Int) < st.step) :
    Settle.Within (encodeAgain v) 6 (fun y => y = ⟨0, v⟩) st := by
  have hseven : ∀ y : Adpcm, y.index = 0 → y.step = 7 := by
    intro y hy
    unfold Adpcm.step
    rw [hy]
    rfl
  have hstep : ∀ y, (CodecOk y ∧ y.index = 0 ∧ (y.error v).natAbs < 7) →
      ¬ (y.error v).natAbs = 0 →
      (CodecOk (encodeAgain v y) ∧ (encodeAgain v y).index = 0 ∧
        ((encodeAgain v y).error v).natAbs < 7) ∧
        ((encodeAgain v y).error v).natAbs < (y.error v).natAbs := by
    rintro y ⟨hy, hi, hlt⟩ hne
    have hs := hseven y hi
    have hsmaller := quantised_smallest _ (Nat.pos_of_ne_zero hne) hlt
    have hoff := (adpcmEncode_off hy h1 h2).1
    rw [hs] at hoff
    have hlt' : ((encodeAgain v y).error v).natAbs < (y.error v).natAbs :=
      Nat.lt_of_le_of_lt hoff hsmaller
    have hindex' : (encodeAgain v y).index = 0 := by
      show (adpcmEncode v y).2.index = 0
      rw [adpcmEncode_index_near (by omega), hi]
      rfl
    exact ⟨⟨adpcmEncode_ok v y, hindex', by omega⟩, hlt'⟩
  have hs := hseven st hindex
  have hphase : Settle.Within (encodeAgain v) (st.error v).natAbs
      (fun y => (CodecOk y ∧ y.index = 0 ∧ (y.error v).natAbs < 7) ∧ (y.error v).natAbs = 0) st :=
    Settle.Within.of_measure _ (fun y : Adpcm => (y.error v).natAbs) hstep
      ⟨hst, hindex, by omega⟩
  obtain ⟨k, hk, ⟨-, hi, -⟩, herr⟩ := hphase
  refine ⟨k, by omega, ?_⟩
  generalize (encodeAgain v)^[k] st = y at hi herr ⊢
  obtain ⟨i, p⟩ := y
  obtain rfl : i = 0 := hi
  have herr : (v - p).natAbs = 0 := herr
  have hp : p = v := by omega
  rw [hp]

/-! ## Rest -/

/-- The code of the call number `k` of `ADPCM_Encode (v)`. -/
def codeAgain (v : Int) (st : Adpcm) (k : Nat) : Nat := (adpcmEncode v ((encodeAgain v)^[k] st)).1

/-- A decoder that starts where the encoder starts, before the code number `k`. -/
def decoderAt (v : Int) (st : Adpcm) : Nat → Adpcm
  | 0 => st
  | k + 1 => (adpcmDecode (codeAgain v st k) (decoderAt v st k)).2

/-- The sample it makes of that code. -/
def sampleAt (v : Int) (st : Adpcm) (k : Nat) : Int :=
  (adpcmDecode (codeAgain v st k) (decoderAt v st k)).1

/-- The decoder is where the encoder is. -/
theorem decoderAt_eq (v : Int) (st : Adpcm) (k : Nat) : decoderAt v st k = (encodeAgain v)^[k] st := by
  induction k with
  | zero => rfl
  | succ k ih =>
      rw [Function.iterate_succ_apply', decoderAt, ih]
      exact ((adpcmEncode_spec v _).2).symm

theorem sampleAt_eq (v : Int) (st : Adpcm) (k : Nat) :
    sampleAt v st k = ((encodeAgain v)^[k + 1] st).predsample := by
  unfold sampleAt codeAgain
  rw [decoderAt_eq, adpcmDecode_encode, Function.iterate_succ_apply']
  rfl

/-- At rest: the smallest step, and no difference. -/
theorem adpcmEncode_rest {v : Int} (h1 : -32768 ≤ v) (h2 : v ≤ 32767) :
    adpcmEncode v ⟨0, v⟩ = (0, ⟨0, v⟩) := by
  have hpred : (adpcmEncode v ⟨0, v⟩).2.predsample = v := by
    rw [adpcmEncode_predsample, if_neg (Int.lt_irrefl v), Int.sub_self]
    show clampSample (v + quantised 7 0) = v
    rw [show quantised 7 0 = 0 by decide, Int.add_zero, clampSample_of_range h1 h2]
  have hcode : (adpcmEncode v ⟨0, v⟩).1 = 0 := by
    unfold adpcmEncode
    simp only [Int.sub_self]
    rfl
  have hindex : (adpcmEncode v ⟨0, v⟩).2.index = 0 := by
    have hnear : ((Adpcm.error v ⟨0, v⟩).natAbs : Int) < Adpcm.step ⟨0, v⟩ := by
      rw [Adpcm.error, Int.sub_self]
      show (0 : Int) < 7
      decide
    rw [adpcmEncode_index_near hnear]
    rfl
  generalize adpcmEncode v ⟨0, v⟩ = r at hpred hcode hindex ⊢
  obtain ⟨c, i, p⟩ := r
  obtain rfl : c = 0 := hcode
  obtain rfl : i = 0 := hindex
  obtain rfl : p = v := hpred
  rfl

/-- **On a constant the codec comes to rest.**  After at most 128 calls `predsample` is the
sample and the index 0; every code from then on is 0, and a decoder that started where the
encoder did plays the constant. -/
theorem constant_settles {v : Int} {st : Adpcm} (hst : CodecOk st) (h1 : -32768 ≤ v)
    (h2 : v ≤ 32767) :
    ∃ n ≤ 128, ∀ k, n ≤ k →
      (encodeAgain v)^[k] st = ⟨0, v⟩ ∧ codeAgain v st k = 0 ∧ sampleAt v st k = v := by
  have hrest := adpcmEncode_rest h1 h2
  have hphases : Settle.Within (encodeAgain v) (12 + (1 + (88 + 6))) (fun y => y = ⟨0, v⟩) st := by
    refine (overload_ends hst h1 h2).trans ?_
    rintro y ⟨hy, hnear⟩
    have hlocked := near_locks hy h1 h2 hnear
    refine Settle.Within.trans (P := fun z => z = encodeAgain v y) ⟨1, Nat.le_refl 1, rfl⟩ ?_
    rintro _ rfl
    refine (index_falls (adpcmEncode_ok v y) h1 h2 hlocked).trans ?_
    rintro z ⟨⟨hz, hlt⟩, hi⟩
    exact error_disappears hz h1 h2 hi hlt
  obtain ⟨n, hn, hfix⟩ := hphases.fixed (congrArg Prod.snd hrest)
  refine ⟨n, by omega, ?_⟩
  intro k hk
  have hstate := hfix k hk
  refine ⟨hstate, ?_, ?_⟩
  · unfold codeAgain
    rw [hstate, hrest]
  · rw [sampleAt_eq, hfix (k + 1) (by omega)]

/-- From the largest step and the other end of the range. -/
theorem fullScale_settles :
    ∃ n ≤ 128, ∀ k, n ≤ k → (encodeAgain 32767)^[k] ⟨88, -32768⟩ = ⟨0, 32767⟩ ∧
      codeAgain 32767 ⟨88, -32768⟩ k = 0 ∧ sampleAt 32767 ⟨88, -32768⟩ k = 32767 :=
  constant_settles ⟨by decide, by decide, by decide, by decide⟩ (by decide) (by decide)

end IntercomSalve
