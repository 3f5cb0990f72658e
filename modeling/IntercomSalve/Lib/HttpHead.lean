/-
# `Lib.HttpHead` — heads of HTTP requests, written and read

The head of a request is its first line, with the method, the target and the
version, and the fields; each ends a line, and an empty line ends the head.

A `Head` can be written so that it can be read: what would end one of its parts
too early is not in it, and that is part of the type.  Reading what was written
gives the head back, and with it whatever stands behind it (`read_text`), so that
a head never says anything about the body it is in front of.

Numbers are written in decimal (`printDecimal`), and `CString.decimal` reads them
(`decimal_printDecimal`).
-/
import Mathlib.Data.Nat.Digits.Lemmas
import IntercomSalve.Lib.CString

namespace HttpHead

/-! ## Lines -/

/-- The end of a line. -/
def lineEnd : List UInt8 := [13, 10]

/-- The first line of a text, and what follows it. -/
def takeLine : List UInt8 → Option (List UInt8 × List UInt8)
  | [] => none
  | b :: s =>
      if b = 13 ∧ s.head? = some 10 then some ([], s.tail)
      else (takeLine s).map fun r => (b :: r.1, r.2)

/-- What has no carriage return in it is one line. -/
theorem takeLine_append {l : List UInt8} (h : (13 : UInt8) ∉ l) (t : List UInt8) :
    takeLine (l ++ (lineEnd ++ t)) = some (l, t) := by
  induction l with
  | nil => rfl
  | cons b l ih =>
      obtain ⟨hb, hl⟩ := not_or.mp (List.mem_cons.not.mp h)
      have hne : ¬ (b = 13 ∧ (l ++ (lineEnd ++ t)).head? = some 10) := fun hc => hb hc.1.symm
      rw [List.cons_append, takeLine, if_neg hne, ih hl]
      rfl

/-- A text before the first `c`, and behind it. -/
def cut (c : UInt8) (s : List UInt8) : List UInt8 × List UInt8 :=
  (s.takeWhile (· ≠ c), (s.dropWhile (· ≠ c)).drop 1)

theorem cut_append {c : UInt8} {l : List UInt8} (h : c ∉ l) (t : List UInt8) :
    cut c (l ++ c :: t) = (l, t) := by
  have hall : ∀ b ∈ l, decide (b ≠ c) = true := fun b hb =>
    decide_eq_true fun he => h (he ▸ hb)
  have htake : (l ++ c :: t).takeWhile (· ≠ c) = l := by
    rw [List.takeWhile_append_of_pos hall, List.takeWhile_cons_of_neg (by simp),
      List.append_nil]
  have hdrop : (l ++ c :: t).dropWhile (· ≠ c) = c :: t := by
    rw [List.dropWhile_append_of_pos hall, List.dropWhile_cons_of_neg (by simp)]
  rw [cut, htake, hdrop]
  rfl

/-! ## Heads -/

/-- A field: nothing ends its line, and nothing but the colon behind it ends the name. -/
structure Field where
  name : List UInt8
  value : List UInt8
  name_ok : name ≠ [] ∧ 13 ∉ name ∧ 58 ∉ name
  value_ok : 13 ∉ value ∧ value.head? ≠ some 32
  deriving DecidableEq

/-- A head: blanks part the words of its first line. -/
structure Head where
  method : List UInt8
  target : List UInt8
  version : List UInt8
  fields : List Field
  method_ok : 13 ∉ method ∧ 32 ∉ method
  target_ok : 13 ∉ target ∧ 32 ∉ target
  version_ok : 13 ∉ version
  deriving DecidableEq

/-- A name and a value that make a field. -/
def IsField (name value : List UInt8) : Prop :=
  (name ≠ [] ∧ 13 ∉ name ∧ 58 ∉ name) ∧ (13 ∉ value ∧ value.head? ≠ some 32)

instance (name value : List UInt8) : Decidable (IsField name value) :=
  inferInstanceAs (Decidable (_ ∧ _))

/-- The two of them. -/
def Field.pair (f : Field) : List UInt8 × List UInt8 := (f.name, f.value)

theorem exists_fields {l : List (List UInt8 × List UInt8)} (h : ∀ p ∈ l, IsField p.1 p.2) :
    ∃ fs : List Field, fs.map Field.pair = l := by
  induction l with
  | nil => exact ⟨[], rfl⟩
  | cons p l ih =>
      obtain ⟨hname, hvalue⟩ := h p (List.mem_cons_self ..)
      obtain ⟨fs, rfl⟩ := ih fun q hq => h q (List.mem_cons_of_mem p hq)
      exact ⟨⟨p.1, p.2, hname, hvalue⟩ :: fs, rfl⟩

/-- `name: value`, without the end of the line. -/
def Field.line (f : Field) : List UInt8 := f.name ++ 58 :: 32 :: f.value

/-- The first line, without its end. -/
def Head.startLine (h : Head) : List UInt8 := h.method ++ 32 :: (h.target ++ 32 :: h.version)

/-- Some fields, as they are written, with the empty line. -/
def fieldsText (fs : List Field) : List UInt8 :=
  fs.flatMap (fun f => f.line ++ lineEnd) ++ lineEnd

theorem fieldsText_eq (fs : List Field) :
    fieldsText fs
      = (fs.map Field.pair).flatMap (fun p => p.1 ++ [58, 32] ++ p.2 ++ lineEnd) ++ lineEnd := by
  unfold fieldsText
  rw [List.flatMap_map]
  congr 2
  funext f
  simp [Field.line, Field.pair]

/-- A head, as it is written. -/
def Head.text (h : Head) : List UInt8 := h.startLine ++ (lineEnd ++ fieldsText h.fields)

/-- A head with these parts, and how it is written. -/
theorem exists_head {method target version : List UInt8} {l : List (List UInt8 × List UInt8)}
    (hm : 13 ∉ method ∧ 32 ∉ method) (ht : 13 ∉ target ∧ 32 ∉ target) (hv : 13 ∉ version)
    (hl : ∀ p ∈ l, IsField p.1 p.2) :
    ∃ h : Head, (h.method = method ∧ h.target = target ∧ h.version = version ∧
        h.fields.map Field.pair = l) ∧
      h.text = method ++ 32 :: (target ++ 32 :: version) ++ (lineEnd ++
        (l.flatMap (fun p => p.1 ++ [58, 32] ++ p.2 ++ lineEnd) ++ lineEnd)) := by
  obtain ⟨fs, rfl⟩ := exists_fields hl
  refine ⟨⟨method, target, version, fs, hm, ht, hv⟩, ⟨rfl, rfl, rfl, rfl⟩, ?_⟩
  rw [← fieldsText_eq]
  rfl

/-- The field on a line. -/
def readField (l : List UInt8) : Option Field :=
  let (name, rest) := cut 58 l
  let value := rest.dropWhile (· = 32)
  if hn : name ≠ [] ∧ 13 ∉ name ∧ 58 ∉ name then
    if hv : 13 ∉ value ∧ value.head? ≠ some 32 then some ⟨name, value, hn, hv⟩ else none
  else none

/-- The fields up to the empty line, and what follows it.  There are no more lines than bytes. -/
def readFields : Nat → List UInt8 → Option (List Field × List UInt8)
  | 0, _ => none
  | fuel + 1, s =>
      (takeLine s).bind fun (l, t) =>
        if l = [] then some ([], t)
        else (readField l).bind fun f => (readFields fuel t).map fun r => (f :: r.1, r.2)

/-- The head at the beginning of a text, and what follows it. -/
def read (s : List UInt8) : Option (Head × List UInt8) :=
  (takeLine s).bind fun (l, t) =>
    let (method, rest) := cut 32 l
    let (target, version) := cut 32 rest
    (readFields t.length t).bind fun (fields, body) =>
      if hm : 13 ∉ method ∧ 32 ∉ method then
        if ht : 13 ∉ target ∧ 32 ∉ target then
          if hv : 13 ∉ version then
            some (⟨method, target, version, fields, hm, ht, hv⟩, body)
          else none
        else none
      else none

/-! ## Reading what was written -/

theorem Field.noCr_line (f : Field) : (13 : UInt8) ∉ f.line := by
  unfold Field.line
  rw [List.mem_append, List.mem_cons, List.mem_cons]
  rintro (h | h | h | h)
  · exact f.name_ok.2.1 h
  · exact absurd h (by decide)
  · exact absurd h (by decide)
  · exact f.value_ok.1 h

theorem Field.line_ne (f : Field) : f.line ≠ [] := by
  unfold Field.line
  exact List.append_ne_nil_of_right_ne_nil _ (List.cons_ne_nil _ _)

theorem readField_line (f : Field) : readField f.line = some f := by
  have hcut : cut 58 f.line = (f.name, 32 :: f.value) := cut_append f.name_ok.2.2 _
  have hvalue : (32 :: f.value).dropWhile (· = 32) = f.value := by
    rw [List.dropWhile_cons_of_pos (by decide)]
    cases hv : f.value with
    | nil => rfl
    | cons b v =>
        have hb : b ≠ 32 := fun he => f.value_ok.2 (by rw [hv, he]; rfl)
        exact List.dropWhile_cons_of_neg (by simp [hb])
  unfold readField
  rw [hcut]
  dsimp only
  rw [dif_pos f.name_ok]
  simp only [hvalue]
  rw [dif_pos f.value_ok]

theorem fieldsText_cons (f : Field) (fs : List Field) :
    fieldsText (f :: fs) = f.line ++ (lineEnd ++ fieldsText fs) := by
  simp [fieldsText]

theorem length_lt_fieldsText (fs : List Field) : fs.length < (fieldsText fs).length := by
  induction fs with
  | nil => decide
  | cons f fs ih =>
      rw [fieldsText_cons, List.length_cons, List.length_append, List.length_append]
      have : 2 = lineEnd.length := rfl
      omega

theorem readFields_text (body : List UInt8) :
    ∀ (fs : List Field) (fuel : Nat), fs.length < fuel →
      readFields fuel (fieldsText fs ++ body) = some (fs, body)
  | _, 0, h => absurd h (Nat.not_lt_zero _)
  | [], _ + 1, _ => rfl
  | f :: fs, fuel + 1, h => by
      have hrest := readFields_text body fs fuel (Nat.lt_of_succ_lt_succ h)
      rw [fieldsText_cons, List.append_assoc, List.append_assoc, readFields,
        takeLine_append f.noCr_line, Option.bind_some]
      dsimp only
      rw [if_neg f.line_ne, readField_line, Option.bind_some, hrest]
      rfl

theorem Head.noCr_startLine (h : Head) : (13 : UInt8) ∉ h.startLine := by
  unfold Head.startLine
  rw [List.mem_append, List.mem_cons, List.mem_append, List.mem_cons]
  rintro (hm | hm | hm | hm | hm)
  · exact h.method_ok.1 hm
  · exact absurd hm (by decide)
  · exact h.target_ok.1 hm
  · exact absurd hm (by decide)
  · exact h.version_ok hm

/-- **A head that was written is read back**, and what stands behind it is left as it is. -/
theorem read_text (h : Head) (body : List UInt8) : read (h.text ++ body) = some (h, body) := by
  have hline : takeLine (h.text ++ body) = some (h.startLine, fieldsText h.fields ++ body) := by
    rw [Head.text, List.append_assoc, List.append_assoc]
    exact takeLine_append h.noCr_startLine _
  have hmethod : cut 32 h.startLine = (h.method, h.target ++ 32 :: h.version) :=
    cut_append h.method_ok.2 _
  have htarget : cut 32 (h.target ++ 32 :: h.version) = (h.target, h.version) :=
    cut_append h.target_ok.2 _
  have hfields : readFields (fieldsText h.fields ++ body).length (fieldsText h.fields ++ body)
      = some (h.fields, body) := by
    refine readFields_text body h.fields _ ?_
    have hlt := length_lt_fieldsText h.fields
    rw [List.length_append]
    omega
  unfold read
  rw [hline, Option.bind_some]
  simp only [hmethod, htarget, hfields, Option.bind_some]
  rw [dif_pos h.method_ok, dif_pos h.target_ok, dif_pos h.version_ok]

/-! ## Numbers -/

/-- `sprintf ("%u", n)`. -/
def printDecimal (n : Nat) : List UInt8 :=
  if n = 0 then [48] else (Nat.digits 10 n).reverse.map fun d => UInt8.ofNat (48 + d)

/-- A printed digit. -/
theorem toNat_digit {d : Nat} (hd : d < 10) : (UInt8.ofNat (48 + d)).toNat = 48 + d := by
  rw [UInt8.toNat_ofNat']
  omega

theorem ofDigits_reverse (ds : List Nat) : CString.ofDigits 10 ds.reverse = Nat.ofDigits 10 ds := by
  rw [CString.ofDigits, List.foldl_reverse, Nat.ofDigits_eq_foldr]
  congr 1
  funext d n
  rw [Nat.cast_id]
  omega

/-- A printed number is read back. -/
theorem decimal_printDecimal (n : Nat) : CString.decimal (printDecimal n) = n := by
  by_cases h0 : n = 0
  · rw [h0]
    rfl
  · have hdigits : ((Nat.digits 10 n).reverse.map fun d => UInt8.ofNat (48 + d)).map
        (fun b => b.toNat - 48) = (Nat.digits 10 n).reverse := by
      rw [List.map_map]
      refine (List.map_congr_left fun d hd => ?_).trans (List.map_id _)
      have hlt : d < 10 := Nat.digits_lt_base (by decide) (List.mem_reverse.mp hd)
      rw [Function.comp_apply, toNat_digit hlt]
      exact Nat.add_sub_cancel_left 48 d
    rw [CString.decimal, printDecimal, if_neg h0, hdigits, ofDigits_reverse, Nat.ofDigits_digits]

/-- Only digits are printed. -/
theorem isDigit_printDecimal {n : Nat} {b : UInt8} (h : b ∈ printDecimal n) :
    48 ≤ b.toNat ∧ b.toNat ≤ 57 := by
  unfold printDecimal at h
  split at h
  · rw [List.mem_singleton.mp h]
    decide
  · obtain ⟨d, hd, rfl⟩ := List.mem_map.mp h
    have hlt : d < 10 := Nat.digits_lt_base (by decide) (List.mem_reverse.mp hd)
    rw [toNat_digit hlt]
    omega

/-- A number below a power of ten has no more digits than that has zeros. -/
theorem length_printDecimal_le {n k : Nat} (hk : 0 < k) (h : n < 10 ^ k) :
    (printDecimal n).length ≤ k := by
  unfold printDecimal
  split
  · exact hk
  · rw [List.length_map, List.length_reverse]
    exact (Nat.digits_length_le_iff (by decide) n).mpr h

end HttpHead
