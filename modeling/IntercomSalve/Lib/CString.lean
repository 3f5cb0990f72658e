/-
# `Lib.CString` — strings that end at the first zero byte, and the C calls on them

A buffer is the list of its bytes, with a zero byte after the last one; the
string in it is what stands before its first zero byte (`cString`).  The calls
modelled are `strstr`, `strchr`, `strncmp` and `strncasecmp` against a literal, and the number
readers `strtol` and `strtoul` of a machine whose `long` has 32 bits.

What the parsers on top need is that these calls look no further than they
have to: an occurrence found in a prefix is the one found in the whole
(`occurs_append`), a prefix that ends before it has none
(`occurs_eq_none_of_shorter`), and a number ends at the first byte that is
no digit (`digits_append`).
-/
import Mathlib.Data.List.TakeWhile
import Mathlib.Data.Nat.Basic
import Mathlib.Tactic.Common

namespace CString

/-- The string in a buffer. -/
def cString (s : List UInt8) : List UInt8 := s.takeWhile (· ≠ 0)

/-- The offset of the first place of `s` where `pat` starts. -/
def occurs (pat : List UInt8) : List UInt8 → Option Nat
  | [] => if pat.isEmpty then some 0 else none
  | b :: s => if pat.isPrefixOf (b :: s) then some 0 else (occurs pat s).map (· + 1)

/-- `strstr`, as an offset. -/
def strstr (s pat : List UInt8) : Option Nat := occurs pat (cString s)

/-- `strncmp (s, lit, strlen (lit)) == 0`. -/
def startsWith (s lit : List UInt8) : Bool := lit.isPrefixOf (cString s)

/-- `strchr`, as an offset; not for the zero byte. -/
def strchr (s : List UInt8) (c : UInt8) : Option Nat := (cString s).findIdx? (· == c)

/-- `tolower` of the C locale. -/
def toLower (b : UInt8) : UInt8 := if 65 ≤ b ∧ b ≤ 90 then b + 32 else b

/-- `strncasecmp (s, lit, strlen (lit)) == 0`. -/
def startsWithNoCase (s lit : List UInt8) : Bool :=
  ((cString s).take lit.length).map toLower == lit.map toLower

/-- `isspace` of the C locale. -/
def isSpace (b : UInt8) : Bool := b = 32 ∨ (9 ≤ b ∧ b ≤ 13)

/-- The value of a digit, of whatever base. -/
def digitVal (b : UInt8) : Option Nat :=
  if 48 ≤ b ∧ b ≤ 57 then some (b.toNat - 48)
  else if 65 ≤ b ∧ b ≤ 90 then some (b.toNat - 55)
  else if 97 ≤ b ∧ b ≤ 122 then some (b.toNat - 87)
  else none

/-- The digits of `base` that `s` starts with. -/
def digits (base : Nat) : List UInt8 → List Nat
  | [] => []
  | b :: s =>
    match digitVal b with
    | some d => if d < base then d :: digits base s else []
    | none => []

/-- The number with these digits, the first one the most significant. -/
def ofDigits (base : Nat) (ds : List Nat) : Nat := ds.foldl (fun n d => n * base + d) 0

/-- The value of a string of decimal digits. -/
def decimal (ds : List UInt8) : Nat := ofDigits 10 (ds.map fun d => d.toNat - 48)

/-- The sign in front of a number, and what follows it. -/
def sign : List UInt8 → Bool × List UInt8
  | [] => (false, [])
  | b :: s => if b = 45 then (true, s) else if b = 43 then (false, s) else (false, b :: s)

/-- The `0x` that a number of base 16 may start with is skipped. -/
def skipHexPrefix (base : Nat) (s : List UInt8) : List UInt8 :=
  match s with
  | 48 :: x :: d :: r =>
    if base = 16 ∧ (x = 120 ∨ x = 88) ∧ (digits 16 [d] ≠ []) then d :: r else s
  | _ => s

/-- What `strtol` and `strtoul` read: whether there is a minus sign, and the magnitude. -/
def scan (base : Nat) (s : List UInt8) : Bool × Nat :=
  let (neg, s) := sign ((cString s).dropWhile isSpace)
  (neg, ofDigits base (digits base (skipHexPrefix base s)))

/-- `strtoul`: `ULONG_MAX` where the magnitude does not fit. -/
def strtoul (base : Nat) (s : List UInt8) : Nat :=
  let (neg, n) := scan base s
  if 4294967296 ≤ n then 4294967295 else if neg then (4294967296 - n) % 4294967296 else n

/-- `strtol`: `LONG_MAX` or `LONG_MIN` where the value does not fit. -/
def strtol (base : Nat) (s : List UInt8) : Int :=
  let (neg, n) := scan base s
  if neg then (if 2147483648 < n then -2147483648 else -(n : Int))
  else if 2147483648 ≤ n then 2147483647 else n

/-- What stands behind the digits of `base`. -/
def dropDigits (base : Nat) : List UInt8 → List UInt8
  | [] => []
  | b :: s =>
    match digitVal b with
    | some d => if d < base then dropDigits base s else b :: s
    | none => b :: s

/-- `endptr` of `strtol` and `strtoul`: what stands behind the number, or the whole string where
there is none. -/
def numberEnd (base : Nat) (s : List UInt8) : List UInt8 :=
  let r := skipHexPrefix base (sign ((cString s).dropWhile isSpace)).2
  if digits base r = [] then cString s else dropDigits base r

/-! ## The string of a buffer -/

theorem cString_append_of_noNul {s t : List UInt8} (hs : (0 : UInt8) ∉ s) :
    cString (s ++ t) = s ++ cString t :=
  List.takeWhile_append_of_pos fun b hb => by
    simp only [ne_eq, decide_eq_true_eq]
    rintro rfl
    exact hs hb

theorem cString_of_noNul {s : List UInt8} (hs : (0 : UInt8) ∉ s) : cString s = s := by
  have h := cString_append_of_noNul (t := []) hs
  simpa [cString] using h

/-- What stands behind a zero byte is not in the string. -/
theorem cString_append_nul (s t : List UInt8) : cString (s ++ 0 :: t) = cString s := by
  unfold cString
  induction s with
  | nil => rfl
  | cons c s ih =>
      simp only [List.cons_append, List.takeWhile_cons, ih]

/-! ## Characters -/

/-- The first place of a byte is behind what does not have it. -/
theorem strchr_append {s t : List UInt8} {c : UInt8} (hs : (0 : UInt8) ∉ s) (hc : c ∉ s) :
    strchr (s ++ t) c = (strchr t c).map (· + s.length) := by
  have hnone : s.findIdx? (· == c) = none := by
    rw [List.findIdx?_eq_none_iff]
    intro b hb
    rw [beq_eq_false_iff_ne]
    rintro rfl
    exact hc hb
  rw [strchr, cString_append_of_noNul hs, List.findIdx?_append, hnone, Option.none_or]
  rfl

theorem strchr_cons_self {t : List UInt8} {c : UInt8} (hc : c ≠ 0) :
    strchr (c :: t) c = some 0 := by
  have hstr : cString (c :: t) = c :: cString t := by simp [cString, hc]
  rw [strchr, hstr, List.findIdx?_cons, if_pos (beq_self_eq_true c)]

theorem strchr_eq_none {s : List UInt8} {c : UInt8} (hc : c ∉ s) : strchr s c = none := by
  rw [strchr, List.findIdx?_eq_none_iff]
  intro b hb
  rw [beq_eq_false_iff_ne]
  rintro rfl
  exact hc ((List.takeWhile_sublist _).subset hb)

theorem strchr_isSome {s : List UInt8} {c : UInt8} (hs : (0 : UInt8) ∉ s) (hc : c ∈ s) :
    ∃ i, strchr s c = some i := by
  rw [← Option.isSome_iff_exists, strchr, cString_of_noNul hs, List.findIdx?_isSome,
    List.any_eq_true]
  exact ⟨c, hc, beq_self_eq_true c⟩

/-! ## Occurrences -/

theorem occurs_le {pat : List UInt8} :
    ∀ {s : List UInt8} {i : Nat}, occurs pat s = some i → i + pat.length ≤ s.length := by
  intro s
  induction s with
  | nil =>
    intro i h
    simp only [occurs] at h
    split at h
    · next he =>
      cases h
      simp [List.isEmpty_iff.mp he]
    · cases h
  | cons b s ih =>
    intro i h
    simp only [occurs] at h
    split at h
    · next hp =>
      cases h
      simpa using (List.isPrefixOf_iff_prefix.mp hp).length_le
    · obtain ⟨j, hj, rfl⟩ := Option.map_eq_some_iff.mp h
      have hle := ih hj
      simp only [List.length_cons]
      omega

/-- The first occurrence in a prefix is the first one in the whole. -/
theorem occurs_append {pat : List UInt8} (t : List UInt8) :
    ∀ {s : List UInt8} {i : Nat}, occurs pat s = some i → occurs pat (s ++ t) = some i := by
  intro s
  induction s with
  | nil =>
    intro i h
    simp only [occurs] at h
    split at h
    · next he =>
      cases h
      cases t with
      | nil => simp [occurs, he]
      | cons b t => simp [occurs, List.isEmpty_iff.mp he]
    · cases h
  | cons b s ih =>
    intro i h
    simp only [occurs] at h
    simp only [List.cons_append, occurs]
    split at h
    · next hp =>
      cases h
      rw [if_pos]
      rw [List.isPrefixOf_iff_prefix] at hp ⊢
      exact hp.trans (List.prefix_append (b :: s) t)
    · next hp =>
      obtain ⟨j, hj, rfl⟩ := Option.map_eq_some_iff.mp h
      have hle := occurs_le hj
      rw [if_neg, ih hj]
      · rfl
      · -- a pattern that fits into `s` cannot need the bytes after `b :: s`
        intro hp'
        refine hp (List.isPrefixOf_iff_prefix.mpr ?_)
        refine List.prefix_of_prefix_length_le (List.isPrefixOf_iff_prefix.mp hp')
          (List.prefix_append (b :: s) t) ?_
        simp only [List.length_cons]
        omega

/-- A prefix that ends before the first occurrence does has none. -/
theorem occurs_eq_none_of_shorter {pat s t : List UInt8} {i : Nat} (h : occurs pat s = some i)
    (ht : t <+: s) (hlen : t.length < i + pat.length) : occurs pat t = none := by
  cases hj : occurs pat t with
  | none => rfl
  | some j =>
    obtain ⟨u, rfl⟩ := ht
    have hle := occurs_le hj
    rw [occurs_append u hj] at h
    cases h
    omega

/-! ## Numbers -/

/-- Neither a digit nor anything a number may start with. -/
def StopsNumber (b : UInt8) : Prop := isSpace b = false ∧ b ≠ 43 ∧ b ≠ 45 ∧ digits 10 [b] = []

instance (b : UInt8) : Decidable (StopsNumber b) := by
  unfold StopsNumber
  infer_instance

/-- What follows the first byte that is no digit does not count. -/
theorem digits_append {base : Nat} {b : UInt8} (hb : digits base [b] = []) (t s : List UInt8) :
    digits base (s ++ b :: t) = digits base s := by
  induction s with
  | nil =>
    simp only [List.nil_append, digits] at hb ⊢
    split <;> simp_all
  | cons c s ih => simp only [List.cons_append, digits, ih]

/-- Leading bytes that are skipped end at a byte that is not. -/
theorem dropWhile_append_cons {p : UInt8 → Bool} {b : UInt8} (hb : p b = false)
    (t s : List UInt8) : (s ++ b :: t).dropWhile p = s.dropWhile p ++ b :: t := by
  induction s with
  | nil => simp [hb]
  | cons c s ih =>
    simp only [List.cons_append, List.dropWhile_cons]
    split
    · exact ih
    · rfl

theorem sign_append_cons {b : UInt8} (hb : StopsNumber b) (t s : List UInt8) :
    sign (s ++ b :: t) = ((sign s).1, (sign s).2 ++ b :: t) := by
  cases s with
  | nil => simp [sign, hb.2.1, hb.2.2.1]
  | cons c s =>
    simp only [List.cons_append, sign]
    split
    · rfl
    · split <;> rfl

@[simp] theorem skipHexPrefix_ten (s : List UInt8) : skipHexPrefix 10 s = s := by
  unfold skipHexPrefix
  split <;> simp

theorem scan_append_cons {s : List UInt8} {b : UInt8} (hs : (0 : UInt8) ∉ s) (hb0 : b ≠ 0)
    (hb : StopsNumber b) (t : List UInt8) :
    scan 10 (s ++ b :: t)
      = ((sign (s.dropWhile isSpace)).1,
          ofDigits 10 (digits 10 (sign (s.dropWhile isSpace)).2)) := by
  have hstr : cString (s ++ b :: t) = s ++ b :: cString t := by
    rw [cString_append_of_noNul hs]
    simp [cString, hb0]
  simp only [scan, hstr, dropWhile_append_cons hb.1, sign_append_cons hb, skipHexPrefix_ten,
    digits_append hb.2.2.2]

/-- A number is read without looking past the first byte that ends it. -/
theorem scan_congr {s : List UInt8} {b : UInt8} (hs : (0 : UInt8) ∉ s) (hb0 : b ≠ 0)
    (hb : StopsNumber b) (t t' : List UInt8) : scan 10 (s ++ b :: t) = scan 10 (s ++ b :: t') := by
  rw [scan_append_cons hs hb0 hb, scan_append_cons hs hb0 hb]

theorem strtol_congr {s : List UInt8} {b : UInt8} (hs : (0 : UInt8) ∉ s) (hb0 : b ≠ 0)
    (hb : StopsNumber b) (t t' : List UInt8) :
    strtol 10 (s ++ b :: t) = strtol 10 (s ++ b :: t') := by
  simp only [strtol, scan_congr hs hb0 hb t t']

/-- The decimal digits are the bytes from `'0'` to `'9'`. -/
theorem digits_ten_ne_nil_iff {b : UInt8} :
    digits 10 [b] ≠ [] ↔ 48 ≤ b.toNat ∧ b.toNat ≤ 57 := by
  simp only [digits, digitVal, UInt8.le_iff_toNat_le]
  have h48 : (48 : UInt8).toNat = 48 := rfl
  have h57 : (57 : UInt8).toNat = 57 := rfl
  have h65 : (65 : UInt8).toNat = 65 := rfl
  have h97 : (97 : UInt8).toNat = 97 := rfl
  rw [h48, h57, h65, h97]
  repeat' split
  all_goals grind

/-- A string of decimal digits is read to its end. -/
theorem digits_ten_eq_map {ds : List UInt8} (h : ∀ d ∈ ds, digits 10 [d] ≠ []) :
    digits 10 ds = ds.map fun d => d.toNat - 48 := by
  induction ds with
  | nil => rfl
  | cons d ds ih =>
    have hd := digits_ten_ne_nil_iff.mp (h d (by simp))
    have hval : digitVal d = some (d.toNat - 48) := by
      have h48 : (48 : UInt8).toNat = 48 := rfl
      have h57 : (57 : UInt8).toNat = 57 := rfl
      simp only [digitVal, UInt8.le_iff_toNat_le, h48, h57]
      exact if_pos hd
    simp only [digits, hval, List.map_cons, ih fun c hc => h c (by simp [hc])]
    exact if_pos (by omega)

theorem not_isSpace_of_digit {b : UInt8} (hb : digits 10 [b] ≠ []) : isSpace b = false := by
  have h := digits_ten_ne_nil_iff.mp hb
  have h13 : (13 : UInt8).toNat = 13 := rfl
  simp only [isSpace, decide_eq_false_iff_not, UInt8.le_iff_toNat_le, h13]
  rintro (rfl | hle)
  · exact absurd h.1 (by decide)
  · omega

/-- What follows a number that is up to where no digit stands does not count. -/
theorem digits_append_of_nil {base : Nat} {t : List UInt8} (ht : digits base t = [])
    (s : List UInt8) : digits base (s ++ t) = digits base s := by
  cases t with
  | nil => rw [List.append_nil]
  | cons b t =>
      refine digits_append ?_ t s
      simp only [digits] at ht ⊢
      split <;> simp_all

theorem dropDigits_append {ds t : List UInt8} (hds : ∀ d ∈ ds, digits 10 [d] ≠ [])
    (ht : digits 10 t = []) : dropDigits 10 (ds ++ t) = t := by
  induction ds with
  | nil =>
      cases t with
      | nil => rfl
      | cons b t =>
          simp only [digits] at ht
          simp only [List.nil_append, dropDigits]
          split
          · next d hd =>
              rw [hd] at ht
              dsimp only at ht
              split at ht
              · exact absurd ht (List.cons_ne_nil _ _)
              · next hbig => exact if_neg hbig
          · rfl
  | cons d ds ih =>
      have hd := hds d List.mem_cons_self
      have htail := ih fun c hc => hds c (List.mem_cons_of_mem d hc)
      simp only [digits] at hd
      simp only [List.cons_append, dropDigits, htail]
      split <;> simp_all

/-- A number of digits only is read to its end. -/
theorem number_digits {ds t : List UInt8} (hne : ds ≠ []) (hds : ∀ d ∈ ds, digits 10 [d] ≠ [])
    (ht : digits 10 t = []) (ht0 : (0 : UInt8) ∉ t) :
    scan 10 (ds ++ t) = (false, decimal ds) ∧ numberEnd 10 (ds ++ t) = t := by
  have hnul : (0 : UInt8) ∉ ds ++ t := by
    rw [List.mem_append]
    rintro (h | h)
    · exact hds 0 h rfl
    · exact ht0 h
  obtain ⟨d, ds, rfl⟩ := List.exists_cons_of_ne_nil hne
  have hd := hds d List.mem_cons_self
  have hrange := digits_ten_ne_nil_iff.mp hd
  have h45 : d ≠ 45 := by
    rintro rfl
    exact absurd hrange.1 (by decide)
  have h43 : d ≠ 43 := by
    rintro rfl
    exact absurd hrange.1 (by decide)
  have hskip : (d :: ds ++ t).dropWhile isSpace = d :: ds ++ t := by
    rw [List.cons_append, List.dropWhile_cons_of_neg (by simp [not_isSpace_of_digit hd])]
  have hsign : sign (d :: ds ++ t) = (false, d :: ds ++ t) := by simp [sign, h45, h43]
  have hdigits : digits 10 (d :: ds ++ t) = (d :: ds).map fun d => d.toNat - 48 := by
    rw [digits_append_of_nil ht, digits_ten_eq_map hds]
  constructor
  · simp only [scan, cString_of_noNul hnul, hskip, hsign, skipHexPrefix_ten, hdigits, decimal]
  · simp only [numberEnd, cString_of_noNul hnul, hskip, hsign, skipHexPrefix_ten, hdigits]
    rw [if_neg (by simp)]
    exact dropDigits_append hds ht

/-- A number without sign, behind blanks and up to the byte that ends it. -/
theorem strtoul_decimal {blanks ds : List UInt8} {b : UInt8}
    (hblanks : ∀ c ∈ blanks, c ≠ 0 ∧ isSpace c = true) (hne : ds ≠ [])
    (hds : ∀ d ∈ ds, digits 10 [d] ≠ []) (hb0 : b ≠ 0) (hb : digits 10 [b] = []) (t : List UInt8)
    (hfit : decimal ds < 4294967296) :
    strtoul 10 (blanks ++ (ds ++ b :: t)) = decimal ds := by
  have hnul : (0 : UInt8) ∉ ds := fun h => hds 0 h rfl
  have hstr : cString (blanks ++ (ds ++ b :: t)) = blanks ++ (ds ++ b :: cString t) := by
    rw [cString_append_of_noNul fun h0 => (hblanks 0 h0).1 rfl, cString_append_of_noNul hnul]
    simp [cString, hb0]
  obtain ⟨d, ds', rfl⟩ := List.exists_cons_of_ne_nil hne
  have hd := hds d (by simp)
  have hrange := digits_ten_ne_nil_iff.mp hd
  have h45 : d ≠ 45 := by
    rintro rfl
    exact absurd hrange.1 (by decide)
  have h43 : d ≠ 43 := by
    rintro rfl
    exact absurd hrange.1 (by decide)
  have hskip : (blanks ++ (d :: ds' ++ b :: cString t)).dropWhile isSpace
      = d :: ds' ++ b :: cString t := by
    rw [List.dropWhile_append_of_pos fun c hc => (hblanks c hc).2, List.cons_append,
      List.dropWhile_cons_of_neg (by simp [not_isSpace_of_digit hd])]
  have hsign : sign (d :: ds' ++ b :: cString t) = (false, d :: ds' ++ b :: cString t) := by
    simp [sign, h45, h43]
  have hscan : scan 10 (blanks ++ (d :: ds' ++ b :: t)) = (false, decimal (d :: ds')) := by
    simp only [scan, hstr, hskip, hsign, skipHexPrefix_ten, digits_append hb,
      digits_ten_eq_map hds, decimal]
  simp only [strtoul, hscan]
  rw [if_neg (by omega)]
  rfl

/-! ## Lines -/

/-- A line ends at its line break. -/
theorem strstr_line {s pat : List UInt8} {b : UInt8} (hs : (0 : UInt8) ∉ s) (hb : b ∉ s)
    (hpat : (0 : UInt8) ∉ b :: pat) (t : List UInt8) :
    strstr (s ++ (b :: pat ++ t)) (b :: pat) = some s.length := by
  have hoccurs : occurs (b :: pat) (s ++ (b :: pat)) = some s.length := by
    induction s with
    | nil =>
        have hprefix : (b :: pat).isPrefixOf (b :: pat) = true :=
          List.isPrefixOf_iff_prefix.mpr (List.prefix_refl _)
        simp only [List.nil_append, occurs, hprefix, if_true, List.length_nil]
    | cons c s ih =>
        have hne : b ≠ c := fun h => hb (h ▸ List.mem_cons_self)
        have hno : ¬ (b :: pat).isPrefixOf (c :: (s ++ b :: pat)) = true := by
          simp [List.isPrefixOf, hne]
        rw [List.cons_append, occurs, if_neg hno,
          ih (fun h => hs (List.mem_cons_of_mem c h)) fun h => hb (List.mem_cons_of_mem c h)]
        rfl
  rw [strstr, cString_append_of_noNul hs, cString_append_of_noNul hpat, ← List.append_assoc]
  exact occurs_append _ hoccurs

/-- What is broken off before the end of the line break has none. -/
theorem strstr_none_of_short {s pat q : List UInt8} {b : UInt8} (hs : (0 : UInt8) ∉ s)
    (hb : b ∉ s) (hpat : (0 : UInt8) ∉ b :: pat) (hq : q <+: s ++ (b :: pat))
    (hlen : q.length < (s ++ (b :: pat)).length) : strstr q (b :: pat) = none := by
  have hline : strstr (s ++ (b :: pat)) (b :: pat) = some s.length := by
    simpa using strstr_line hs hb hpat []
  have hnul : (0 : UInt8) ∉ s ++ (b :: pat) := by
    rw [List.mem_append]
    exact fun h => h.elim hs hpat
  rw [strstr, cString_of_noNul hnul] at hline
  rw [strstr, cString_of_noNul fun h => hnul (hq.subset h)]
  refine occurs_eq_none_of_shorter hline hq ?_
  rwa [List.length_append] at hlen

/-! ## Hexadecimal numbers -/

theorem digit_ge {base : Nat} {b : UInt8} (hb : digits base [b] ≠ []) : 48 ≤ b.toNat := by
  have h48 : (48 : UInt8).toNat = 48 := rfl
  have h65 : (65 : UInt8).toNat = 65 := rfl
  have h97 : (97 : UInt8).toNat = 97 := rfl
  by_contra hlt
  refine hb ?_
  simp only [digits, digitVal, UInt8.le_iff_toNat_le, h48, h65, h97]
  rw [if_neg (by omega), if_neg (by omega), if_neg (by omega)]

/-- No hexadecimal digit is the `x` of a prefix. -/
theorem skipHexPrefix_digits {ds : List UInt8} (hds : ∀ d ∈ ds, digits 16 [d] ≠ []) :
    skipHexPrefix 16 ds = ds := by
  unfold skipHexPrefix
  split
  · next x d r =>
      refine if_neg ?_
      rintro ⟨-, hx, -⟩
      have hdigit := hds x (by simp)
      rcases hx with rfl | rfl
      · exact hdigit rfl
      · exact hdigit rfl
  · rfl

/-- A string of hexadecimal digits is read as the number it is. -/
theorem strtoul_hex {ds : List UInt8} (hds : ∀ d ∈ ds, digits 16 [d] ≠ [])
    (hfit : ofDigits 16 (digits 16 ds) < 4294967296) :
    strtoul 16 ds = ofDigits 16 (digits 16 ds) := by
  have hnul : (0 : UInt8) ∉ ds := fun h => hds 0 h rfl
  have hsign : sign (ds.dropWhile isSpace) = (false, ds) := by
    cases ds with
    | nil => rfl
    | cons d ds =>
        have hge := digit_ge (hds d List.mem_cons_self)
        have h13 : (13 : UInt8).toNat = 13 := rfl
        have hspace : isSpace d = false := by
          simp only [isSpace, decide_eq_false_iff_not, UInt8.le_iff_toNat_le, h13]
          rintro (rfl | hle)
          · exact absurd hge (by decide)
          · omega
        have h45 : d ≠ 45 := by
          rintro rfl
          exact absurd hge (by decide)
        have h43 : d ≠ 43 := by
          rintro rfl
          exact absurd hge (by decide)
        rw [List.dropWhile_cons_of_neg (by simp [hspace])]
        simp [sign, h45, h43]
  have hscan : scan 16 ds = (false, ofDigits 16 (digits 16 ds)) := by
    simp only [scan, cString_of_noNul hnul, hsign, skipHexPrefix_digits hds]
  simp only [strtoul, hscan]
  rw [if_neg (by omega)]
  rfl

end CString
