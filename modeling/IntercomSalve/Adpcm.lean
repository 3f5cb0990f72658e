/-
# `Adpcm` — `ADPCM_Encode` and `ADPCM_Decode`

The two halves of the codec, each with its own pair of `static` variables.  The
shifts are of values that are never negative, so they are divisions by powers
of two.
-/
import IntercomSalve.State

namespace IntercomSalve

/-- `StepSizeTable`. -/
def stepSizeTable : List Int :=
  [7, 8, 9, 10, 11, 12, 13, 14, 16, 17,
   19, 21, 23, 25, 28, 31, 34, 37, 41, 45,
   50, 55, 60, 66, 73, 80, 88, 97, 107, 118,
   130, 143, 157, 173, 190, 209, 230, 253, 279, 307,
   337, 371, 408, 449, 494, 544, 598, 658, 724, 796,
   876, 963, 1060, 1166, 1282, 1411, 1552, 1707, 1878, 2066,
   2272, 2499, 2749, 3024, 3327, 3660, 4026, 4428, 4871, 5358,
   5894, 6484, 7132, 7845, 8630, 9493, 10442, 11487, 12635, 13899,
   15289, 16818, 18500, 20350, 22385, 24623, 27086, 29794, 32767]

/-- `IndexTable`, `0xff` being -1. -/
def indexTable : List Int := [-1, -1, -1, -1, 2, 4, 6, 8, -1, -1, -1, -1, 2, 4, 6, 8]

/-- The clamp of `predsample`. -/
def clampSample (x : Int) : Int := if x > 32767 then 32767 else if x < -32768 then -32768 else x

/-- The clamp of `index`. -/
def clampIndex (x : Int) : Int := if x < 0 then 0 else if x > 88 then 88 else x

/-- `ADPCM_Encode (sample)`: the code and the new static state. -/
def adpcmEncode (sample : Int) (st : Adpcm) : Nat × Adpcm :=
  let step := stepSizeTable.getD st.index.toNat 0
  let diff := sample - st.predsample
  let sign := if diff < 0 then 8 else 0
  let diff := if diff < 0 then -diff else diff
  let diffq := step / 8
  let bit4 := if diff ≥ step then 4 else 0
  let diffq := if diff ≥ step then diffq + step else diffq
  let diff := if diff ≥ step then diff - step else diff
  let bit2 := if diff ≥ step / 2 then 2 else 0
  let diffq := if diff ≥ step / 2 then diffq + step / 2 else diffq
  let diff := if diff ≥ step / 2 then diff - step / 2 else diff
  let bit1 := if diff ≥ step / 2 / 2 then 1 else 0
  let diffq := if diff ≥ step / 2 / 2 then diffq + step / 4 else diffq
  let code := sign + bit4 + bit2 + bit1
  let predsample := if sign = 8 then st.predsample - diffq else st.predsample + diffq
  (code, { index := clampIndex (st.index + indexTable.getD code 0)
           predsample := clampSample predsample })

/-- `ADPCM_Decode (code)`: the sample and the new static state. -/
def adpcmDecode (code : Nat) (st : Adpcm) : Int × Adpcm :=
  let step := stepSizeTable.getD st.index.toNat 0
  let diffq := step / 8
  let diffq := if code.testBit 2 then diffq + step else diffq
  let diffq := if code.testBit 1 then diffq + step / 2 else diffq
  let diffq := if code.testBit 0 then diffq + step / 4 else diffq
  let predsample := if code.testBit 3 then st.predsample - diffq else st.predsample + diffq
  let predsample := clampSample predsample
  (predsample, { index := clampIndex (st.index + indexTable.getD code 0)
                 predsample := predsample })

end IntercomSalve
