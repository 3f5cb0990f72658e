/-
# `Codec` — the two halves of the codec belong together

`ADPCM_Encode` keeps, as `predsample`, the value that a decoder in the same state makes
of its code (`adpcmDecode_encode`); so a decoder that starts where the encoder started
plays the encoder's reconstructed samples (`decodeBytes_encodeBytes`).  Both keep the
tables' ranges (`CodecOk`).

The other way round, a state can be told from any other by its first sample
(`adpcmDecode_injective`, `adpcmEncode_injective`): the codec never forgets where it
started.
-/
import IntercomSalve.Audio

namespace IntercomSalve

/-! ## Ranges -/

/-- The state of a codec is inside the tables and inside `int16`. -/
structure CodecOk (st : Adpcm) : Prop where
  index_nonneg : 0 ≤ st.index
  index_le : st.index ≤ 88
  predsample_ge : -32768 ≤ st.predsample
  predsample_le : st.predsample ≤ 32767

theorem clampIndex_range (x : Int) : 0 ≤ clampIndex x ∧ clampIndex x ≤ 88 := by
  unfold clampIndex
  split
  · omega
  · split <;> omega

theorem clampSample_range (x : Int) : -32768 ≤ clampSample x ∧ clampSample x ≤ 32767 := by
  unfold clampSample
  split
  · omega
  · split <;> omega

theorem clampSample_of_range {x : Int} (h1 : -32768 ≤ x) (h2 : x ≤ 32767) : clampSample x = x := by
  unfold clampSample
  rw [if_neg (by omega), if_neg (by omega)]

/-- Every state a codec is left in is in range. -/
theorem codecOk_of_clamps (i p : Int) :
    CodecOk { index := clampIndex i, predsample := clampSample p } :=
  ⟨(clampIndex_range i).1, (clampIndex_range i).2, (clampSample_range p).1,
    (clampSample_range p).2⟩

theorem adpcmEncode_ok (x : Int) (st : Adpcm) : CodecOk (adpcmEncode x st).2 :=
  codecOk_of_clamps _ _

theorem adpcmDecode_ok (code : Nat) (st : Adpcm) : CodecOk (adpcmDecode code st).2 :=
  codecOk_of_clamps _ _

/-! ## One sample -/

/-- The step of a state. -/
def Adpcm.step (st : Adpcm) : Int := stepSizeTable.getD st.index.toNat 0

/-- The change a code stands for, without its sign. -/
def codeDiff (step : Int) (code : Nat) : Int :=
  step / 8 + (if code.testBit 2 then step else 0) + (if code.testBit 1 then step / 2 else 0) +
    (if code.testBit 0 then step / 4 else 0)

/-- The sample a code makes of a state. -/
def codeSample (st : Adpcm) (code : Nat) : Int :=
  clampSample (if code.testBit 3 then st.predsample - codeDiff st.step code
    else st.predsample + codeDiff st.step code)

/-- **Decoding** a code. -/
theorem adpcmDecode_eq (code : Nat) (st : Adpcm) :
    adpcmDecode code st =
      (codeSample st code,
        { index := clampIndex (st.index + indexTable.getD code 0)
          predsample := codeSample st code }) := by
  have hdiff : (if code.testBit 0 then
      (if code.testBit 1 then (if code.testBit 2 then st.step / 8 + st.step else st.step / 8) +
        st.step / 2 else if code.testBit 2 then st.step / 8 + st.step else st.step / 8) +
          st.step / 4
      else if code.testBit 1 then (if code.testBit 2 then st.step / 8 + st.step else st.step / 8) +
        st.step / 2 else if code.testBit 2 then st.step / 8 + st.step else st.step / 8) =
      codeDiff st.step code := by
    unfold codeDiff
    split <;> split <;> split <;> omega
  unfold adpcmDecode codeSample
  rw [← hdiff]
  rfl

/-- A code is a nibble: the sign, and one bit for each half of the step. -/
theorem adpcmEncode_code (x : Int) (st : Adpcm) :
    ∃ s b4 b2 b1 : Bool,
      (adpcmEncode x st).1 =
        (if s then 8 else 0) + (if b4 then 4 else 0) + (if b2 then 2 else 0) + (if b1 then 1 else 0) ∧
      (adpcmEncode x st).2 =
        { index := clampIndex (st.index + indexTable.getD (adpcmEncode x st).1 0)
          predsample := clampSample (if s then
            st.predsample - (st.step / 8 + (if b4 then st.step else 0) +
              (if b2 then st.step / 2 else 0) + (if b1 then st.step / 4 else 0))
            else st.predsample + (st.step / 8 + (if b4 then st.step else 0) +
              (if b2 then st.step / 2 else 0) + (if b1 then st.step / 4 else 0))) } := by
  let d := if x - st.predsample < 0 then -(x - st.predsample) else x - st.predsample
  let d4 := if d ≥ st.step then d - st.step else d
  let d2 := if d4 ≥ st.step / 2 then d4 - st.step / 2 else d4
  refine ⟨decide (x - st.predsample < 0), decide (d ≥ st.step), decide (d4 ≥ st.step / 2),
    decide (d2 ≥ st.step / 2 / 2), ?_, ?_⟩
  · simp only [decide_eq_true_eq]
    rfl
  · have hsign : ((if x - st.predsample < 0 then 8 else 0) = 8) = (x - st.predsample < 0) := by
      split
      · next h => simp [h]
      · next h => simp [h]
    have hdiff : (if d2 ≥ st.step / 2 / 2 then
        (if d4 ≥ st.step / 2 then (if d ≥ st.step then st.step / 8 + st.step else st.step / 8) +
          st.step / 2 else if d ≥ st.step then st.step / 8 + st.step else st.step / 8) +
            st.step / 4
        else if d4 ≥ st.step / 2 then
          (if d ≥ st.step then st.step / 8 + st.step else st.step / 8) + st.step / 2
        else if d ≥ st.step then st.step / 8 + st.step else st.step / 8) =
        st.step / 8 + (if d ≥ st.step then st.step else 0) +
          (if d4 ≥ st.step / 2 then st.step / 2 else 0) +
            (if d2 ≥ st.step / 2 / 2 then st.step / 4 else 0) := by
      split <;> split <;> split <;> omega
    simp only [decide_eq_true_eq]
    rw [← hdiff]
    have hpred : ∀ q : Int,
        (if (if x - st.predsample < 0 then 8 else 0) = 8 then st.predsample - q
          else st.predsample + q) =
        if x - st.predsample < 0 then st.predsample - q else st.predsample + q := by
      intro q
      simp only [hsign]
    rw [← hpred]
    rfl

/-- **Encoding** a sample: the code is a nibble, and the state is the one a decoder makes of
it. -/
theorem adpcmEncode_spec (x : Int) (st : Adpcm) :
    (adpcmEncode x st).1 < 16 ∧
      (adpcmEncode x st).2 = (adpcmDecode (adpcmEncode x st).1 st).2 := by
  obtain ⟨s, b4, b2, b1, hcode, hstate⟩ := adpcmEncode_code x st
  rw [hstate, adpcmDecode_eq, hcode]
  unfold codeSample codeDiff
  cases s <;> cases b4 <;> cases b2 <;> cases b1 <;> exact ⟨by decide, rfl⟩

/-- **The decoder follows the encoder**: it plays the encoder's `predsample`. -/
theorem adpcmDecode_encode (x : Int) (st : Adpcm) :
    adpcmDecode (adpcmEncode x st).1 st = ((adpcmEncode x st).2.predsample, (adpcmEncode x st).2) := by
  rw [(adpcmEncode_spec x st).2, adpcmDecode_eq]

/-! ## A state can be told from its first sample -/

/-- The table rises, and two neighbours a step of 1 apart are small. -/
theorem stepSizeTable_rises :
    stepSizeTable.Pairwise fun a b => a < b ∧ (b = a + 1 → b ≤ 17) := by
  decide +kernel

theorem stepSizeTable_range : ∀ step ∈ stepSizeTable, 7 ≤ step ∧ step ≤ 32767 := by
  decide +kernel

theorem CodecOk.step_eq {st : Adpcm} (h : CodecOk st) :
    ∃ _ : st.index.toNat < stepSizeTable.length, st.step = stepSizeTable[st.index.toNat] := by
  have h1 := h.index_le
  have hlen : stepSizeTable.length = 89 := rfl
  have hlt : st.index.toNat < stepSizeTable.length := by omega
  exact ⟨hlt, List.getD_eq_getElem _ _ hlt⟩

theorem CodecOk.step_range {st : Adpcm} (h : CodecOk st) : 7 ≤ st.step ∧ st.step ≤ 32767 := by
  obtain ⟨hlt, hstep⟩ := h.step_eq
  rw [hstep]
  exact stepSizeTable_range _ (List.getElem_mem _)

/-- A larger index is a larger step. -/
theorem CodecOk.step_lt {st st' : Adpcm} (h : CodecOk st) (h' : CodecOk st')
    (hlt : st.index < st'.index) :
    st.step < st'.step ∧ (st'.step = st.step + 1 → st'.step ≤ 17) := by
  have h0 := h.index_nonneg
  obtain ⟨hi, hstep⟩ := h.step_eq
  obtain ⟨hi', hstep'⟩ := h'.step_eq
  rw [hstep, hstep']
  exact List.pairwise_iff_getElem.mp stepSizeTable_rises _ _ hi hi' (by omega)

/-- Two steps with the same half are the same, or small. -/
theorem CodecOk.step_half {st st' : Adpcm} (h : CodecOk st) (h' : CodecOk st')
    (hhalf : st.step / 2 = st'.step / 2) : st.step = st'.step ∨ st.step ≤ 17 ∧ st'.step ≤ 17 := by
  rcases Int.lt_trichotomy st.index st'.index with hlt | heq | hlt
  · have hsteps := h.step_lt h' hlt
    omega
  · exact Or.inl (by rw [Adpcm.step, Adpcm.step, heq])
  · have hsteps := h'.step_lt h hlt
    omega

theorem CodecOk.ext {st st' : Adpcm} (h : CodecOk st) (h' : CodecOk st')
    (hstep : st.step = st'.step) (hpred : st.predsample = st'.predsample) : st = st' := by
  have hindex : st.index = st'.index := by
    rcases Int.lt_trichotomy st.index st'.index with hlt | heq | hlt
    · have hsteps := h.step_lt h' hlt
      omega
    · exact heq
    · have hsteps := h'.step_lt h hlt
      omega
  obtain ⟨i, p⟩ := st
  obtain ⟨j, q⟩ := st'
  obtain rfl : i = j := hindex
  obtain rfl : p = q := hpred
  rfl

/-- **A decoder can be told from its first sample.** -/
theorem adpcmDecode_injective {st st' : Adpcm} (h : CodecOk st) (h' : CodecOk st')
    (heq : ∀ code < 16, (adpcmDecode code st).1 = (adpcmDecode code st').1) : st = st' := by
  have hcode : ∀ code < 16, codeSample st code = codeSample st' code := by
    intro code hlt
    have hc := heq code hlt
    rwa [adpcmDecode_eq, adpcmDecode_eq] at hc
  have e0 : clampSample (st.predsample + st.step / 8) =
      clampSample (st'.predsample + st'.step / 8) := by
    simpa [codeSample, codeDiff, Nat.testBit] using hcode 0 (by decide)
  have e2 : clampSample (st.predsample + (st.step / 8 + st.step / 2)) =
      clampSample (st'.predsample + (st'.step / 8 + st'.step / 2)) := by
    simpa [codeSample, codeDiff, Nat.testBit] using hcode 2 (by decide)
  have e4 : clampSample (st.predsample + (st.step / 8 + st.step)) =
      clampSample (st'.predsample + (st'.step / 8 + st'.step)) := by
    simpa [codeSample, codeDiff, Nat.testBit] using hcode 4 (by decide)
  have e8 : clampSample (st.predsample - st.step / 8) =
      clampSample (st'.predsample - st'.step / 8) := by
    simpa [codeSample, codeDiff, Nat.testBit] using hcode 8 (by decide)
  have e10 : clampSample (st.predsample - (st.step / 8 + st.step / 2)) =
      clampSample (st'.predsample - (st'.step / 8 + st'.step / 2)) := by
    simpa [codeSample, codeDiff, Nat.testBit] using hcode 10 (by decide)
  have e12 : clampSample (st.predsample - (st.step / 8 + st.step)) =
      clampSample (st'.predsample - (st'.step / 8 + st'.step)) := by
    simpa [codeSample, codeDiff, Nat.testBit] using hcode 12 (by decide)
  obtain ⟨hs1, hs2⟩ := h.step_range
  obtain ⟨ht1, ht2⟩ := h'.step_range
  have hhalf := h.step_half h'
  have hext := h.ext h'
  obtain ⟨-, -, hp1, hp2⟩ := h
  obtain ⟨-, -, hq1, hq2⟩ := h'
  generalize st.step = s at *
  generalize st'.step = t at *
  generalize st.predsample = p at *
  generalize st'.predsample = q at *
  by_cases hp : p < 0
  · by_cases hq : q < 0
    · -- both below zero: what is added is not cut off
      rw [clampSample_of_range (by omega) (by omega),
        clampSample_of_range (by omega) (by omega)] at e0 e2
      rcases hhalf (by omega) with heq | ⟨hs, ht⟩
      · exact hext heq (by omega)
      · rw [clampSample_of_range (by omega) (by omega),
          clampSample_of_range (by omega) (by omega)] at e4
        exact hext (by omega) (by omega)
    · unfold clampSample at e0 e8
      omega
  · by_cases hq : q < 0
    · unfold clampSample at e0 e8
      omega
    · -- both at least zero: what is taken away is not cut off
      rw [clampSample_of_range (by omega) (by omega),
        clampSample_of_range (by omega) (by omega)] at e8 e10
      rcases hhalf (by omega) with heq | ⟨hs, ht⟩
      · exact hext heq (by omega)
      · rw [clampSample_of_range (by omega) (by omega),
          clampSample_of_range (by omega) (by omega)] at e12
        exact hext (by omega) (by omega)

/-- The sign of a code, and its bit for the whole step. -/
theorem adpcmEncode_bits (x : Int) (st : Adpcm) :
    (8 ≤ (adpcmEncode x st).1 ↔ x < st.predsample) ∧
      (4 ≤ (adpcmEncode x st).1 % 8 ↔
        st.step ≤ x - st.predsample ∨ st.step ≤ st.predsample - x) := by
  let d := if x - st.predsample < 0 then -(x - st.predsample) else x - st.predsample
  let d4 := if d ≥ st.step then d - st.step else d
  let d2 := if d4 ≥ st.step / 2 then d4 - st.step / 2 else d4
  have hcode : (adpcmEncode x st).1 = (if x - st.predsample < 0 then 8 else 0) +
      (if d ≥ st.step then 4 else 0) + (if d4 ≥ st.step / 2 then 2 else 0) +
      (if d2 ≥ st.step / 2 / 2 then 1 else 0) := rfl
  have hd : d ≥ st.step ↔ st.step ≤ x - st.predsample ∨ st.step ≤ st.predsample - x := by
    simp only [d]
    split <;> omega
  have hrest : (if d4 ≥ st.step / 2 then 2 else 0) +
      (if d2 ≥ st.step / 2 / 2 then 1 else 0) < 4 := by
    split <;> split <;> decide
  rw [hcode, ← hd, Nat.add_assoc (_ + _)]
  refine ⟨?_, ?_⟩
  · by_cases hs : x - st.predsample < 0
    · rw [if_pos hs]
      omega
    · rw [if_neg hs]
      split <;> omega
  · by_cases hb : d ≥ st.step
    · rw [if_pos hb]
      split <;> omega
    · rw [if_neg hb]
      split <;> omega

/-- **An encoder can be told from its first code.** -/
theorem adpcmEncode_injective {st st' : Adpcm} (h : CodecOk st) (h' : CodecOk st')
    (heq : ∀ x, -32768 ≤ x → x ≤ 32767 → (adpcmEncode x st).1 = (adpcmEncode x st').1) :
    st = st' := by
  obtain ⟨hs1, hs2⟩ := h.step_range
  obtain ⟨ht1, ht2⟩ := h'.step_range
  have hsame : ∀ x, -32768 ≤ x → x ≤ 32767 →
      (x < st.predsample ↔ x < st'.predsample) ∧
        ((st.step ≤ x - st.predsample ∨ st.step ≤ st.predsample - x) ↔
          (st'.step ≤ x - st'.predsample ∨ st'.step ≤ st'.predsample - x)) := by
    intro x h1 h2
    have hbits := adpcmEncode_bits x st
    have hbits' := adpcmEncode_bits x st'
    rw [← hbits.1, ← hbits.2, ← hbits'.1, ← hbits'.2, heq x h1 h2]
    exact ⟨Iff.rfl, Iff.rfl⟩
  have hext := h.ext h'
  obtain ⟨-, -, hp1, hp2⟩ := h
  obtain ⟨-, -, hq1, hq2⟩ := h'
  -- the sample at one `predsample` must have the sign of the other
  have hpred : st.predsample = st'.predsample := by
    have h1 := (hsame _ hp1 hp2).1
    have h2 := (hsame _ hq1 hq2).1
    omega
  -- and the one a step away, towards zero, its bit
  refine hext ?_ hpred
  by_cases h0 : 0 ≤ st.predsample
  · have h1 := (hsame (st.predsample - st.step) (by omega) (by omega)).2
    have h2 := (hsame (st.predsample - st'.step) (by omega) (by omega)).2
    omega
  · have h1 := (hsame (st.predsample + st.step) (by omega) (by omega)).2
    have h2 := (hsame (st.predsample + st'.step) (by omega) (by omega)).2
    omega

/-! ## Packets -/

/-- Decode bytes, low nibble first. -/
def decodeBytes : List UInt8 → Adpcm → List Int × Adpcm
  | [], st => ([], st)
  | b :: bs, st =>
      let a := adpcmDecode (b.toNat % 16) st
      let c := adpcmDecode (b.toNat / 16) a.2
      let rest := decodeBytes bs c.2
      (a.1 :: c.1 :: rest.1, rest.2)

/-- The decoder of `AudioPlayCb`. -/
theorem decodePacket_eq (data : Mem) (i n : Nat) (st : Adpcm) :
    decodePacket data i n st = decodeBytes (data.slice i n) st := by
  induction n generalizing i st with
  | zero => rfl
  | succ n ih =>
      rw [Mem.slice_succ]
      simp only [decodePacket, decodeBytes, ih]

theorem decodeBytes_append (bs cs : List UInt8) (st : Adpcm) :
    decodeBytes (bs ++ cs) st =
      ((decodeBytes bs st).1 ++ (decodeBytes cs (decodeBytes bs st).2).1,
        (decodeBytes cs (decodeBytes bs st).2).2) := by
  induction bs generalizing st with
  | nil => rfl
  | cons b bs ih => simp only [List.cons_append, decodeBytes, ih]

/-- Two codes in a byte, as `AudioRecordCb` packs them. -/
def packCodes (lo hi : Nat) : UInt8 := UInt8.ofNat lo ||| UInt8.ofNat (hi * 16)

/-- Encode samples, two to a byte. -/
def encodeBytes : List (Int × Int) → Adpcm → List UInt8 × Adpcm
  | [], st => ([], st)
  | x :: xs, st =>
      let a := adpcmEncode x.1 st
      let c := adpcmEncode x.2 a.2
      let rest := encodeBytes xs c.2
      (packCodes a.1 c.1 :: rest.1, rest.2)

theorem length_encodeBytes (xs : List (Int × Int)) (st : Adpcm) :
    (encodeBytes xs st).1.length = xs.length := by
  induction xs generalizing st with
  | nil => rfl
  | cons x xs ih => simp only [encodeBytes, List.length_cons, ih]

/-- The samples the encoder reconstructs on the way. -/
def reconstructed : List (Int × Int) → Adpcm → List Int
  | [], _ => []
  | x :: xs, st =>
      let a := adpcmEncode x.1 st
      let c := adpcmEncode x.2 a.2
      a.2.predsample :: c.2.predsample :: reconstructed xs c.2

theorem packCodes_nibbles {lo hi : Nat} (hlo : lo < 16) (hhi : hi < 16) :
    (packCodes lo hi).toNat % 16 = lo ∧ (packCodes lo hi).toNat / 16 = hi := by
  have hall : ∀ lo hi : Fin 16, (packCodes lo hi).toNat % 16 = lo ∧
      (packCodes lo hi).toNat / 16 = hi := by decide
  exact hall ⟨lo, hlo⟩ ⟨hi, hhi⟩

/-- **A packet and its decoding**: a decoder in the state of the encoder plays what the
encoder reconstructs, and ends in its state. -/
theorem decodeBytes_encodeBytes (xs : List (Int × Int)) (st : Adpcm) :
    decodeBytes (encodeBytes xs st).1 st = (reconstructed xs st, (encodeBytes xs st).2) := by
  induction xs generalizing st with
  | nil => rfl
  | cons x xs ih =>
      obtain ⟨h1, h2⟩ := packCodes_nibbles (adpcmEncode_spec x.1 st).1
        (adpcmEncode_spec x.2 (adpcmEncode x.1 st).2).1
      simp only [encodeBytes, decodeBytes, reconstructed, h1, h2, adpcmDecode_encode, ih]

/-- The samples of `n` bytes of a recorded frame, in pairs, from sample `2 * a` on. -/
def samplePairs (buff : Mem) (a n : Nat) : List (Int × Int) :=
  (List.range n).map fun k => (shortAt buff (4 * (a + k)), shortAt buff (4 * (a + k) + 2))

theorem samplePairs_succ (buff : Mem) (a n : Nat) :
    samplePairs buff a (n + 1) =
      (shortAt buff (4 * a), shortAt buff (4 * a + 2)) :: samplePairs buff (a + 1) n := by
  unfold samplePairs
  rw [List.range_succ_eq_map, List.map_cons, List.map_map]
  congr 1
  apply List.map_congr_left
  intro k _
  simp only [Function.comp, Nat.succ_eq_add_one]
  congr 2 <;> omega

/-- Two samples are stored as one byte: the first sets it, the second adds its nibble. -/
theorem recordLoop_pair (buff : Mem) (num n b : Nat) (data : Mem) (st : Adpcm) :
    recordLoop buff num (n + 2) (2 * b) b data st =
      recordLoop buff num n (2 * (b + 1)) (b + 1)
        (Function.update data (num + b)
          (packCodes (adpcmEncode (shortAt buff (4 * b)) st).1
            (adpcmEncode (shortAt buff (4 * b + 2)) (adpcmEncode (shortAt buff (4 * b)) st).2).1))
        (adpcmEncode (shortAt buff (4 * b + 2)) (adpcmEncode (shortAt buff (4 * b)) st).2).2 := by
  have heven : 2 * b % 2 = 0 := by omega
  have hodd : ¬ (2 * b + 1) % 2 = 0 := by omega
  have h1 : 2 * b * 2 = 4 * b := by omega
  have h2 : (2 * b + 1) * 2 = 4 * b + 2 := by omega
  rw [recordLoop, if_pos heven, recordLoop, if_neg hodd, Function.update_self,
    Function.update_idem, h1, h2]
  rfl

theorem memcpy_cons (data : Mem) (i n : Nat) (v : UInt8) (bs : List UInt8) :
    Mem.memcpy (Function.update data i v) (i + 1) (Mem.ofList bs) n =
      data.memcpy i (Mem.ofList (v :: bs)) (n + 1) := by
  funext j
  simp only [Mem.memcpy, Mem.ofList]
  rcases Nat.lt_trichotomy j i with hj | rfl | hj
  · rw [if_neg (by omega), if_neg (by omega), Function.update_of_ne (by omega)]
  · rw [if_neg (by omega), if_pos (by omega), Function.update_self, Nat.sub_self]
    rfl
  · obtain ⟨k, rfl⟩ := Nat.exists_eq_add_of_lt hj
    by_cases hk : k < n
    · rw [if_pos (by omega), if_pos (by omega), show i + k + 1 - (i + 1) = k by omega,
        show i + k + 1 - i = k + 1 by omega]
      rfl
    · rw [if_neg (by omega), if_neg (by omega), Function.update_of_ne (by omega)]

/-- **The loop of `AudioRecordCb`** over `2 * n` samples stores their packed codes. -/
theorem recordLoop_eq (buff : Mem) (num n b : Nat) (data : Mem) (st : Adpcm) :
    recordLoop buff num (2 * n) (2 * b) b data st =
      (data.memcpy (num + b) (Mem.ofList (encodeBytes (samplePairs buff b n) st).1) n,
        (encodeBytes (samplePairs buff b n) st).2) := by
  induction n generalizing b data st with
  | zero =>
      have hnone : data.memcpy (num + b) (Mem.ofList []) 0 = data := by
        funext j
        exact if_neg (by omega)
      exact Prod.ext hnone.symm rfl
  | succ n ih =>
      rw [samplePairs_succ, Nat.mul_succ, recordLoop_pair, ih, ← Nat.add_assoc, memcpy_cons]
      rfl

end IntercomSalve
