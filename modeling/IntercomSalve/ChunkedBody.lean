/-
# `ChunkedBody` — chunked bodies, and where a decoder of one stands

A chunked body is a list of chunks, each a size line and its data, and `0 CR LF CR LF` behind
the last one.  All of them start alike, with a size line, what it counts and a line break; the
last chunk is the one that counts nothing and has nothing behind it (`StartsWithLine`).

A piece of a body may have a size line whole.  Then the decoder makes a sum of it that may not
fit 32 bits; `PieceFits` and `LinesFit` say that it does.

`Mid` says where in a body a decoder stands by what is still to come: before a size line, in a
chunk, or before the line break behind it.  A piece of a chunk takes it from one such place to
another (`Mid.take`).
-/
import IntercomSalve.HttpClient

namespace IntercomSalve

open CString

/-! ## Chunked bodies -/

/-- A chunk: its size line, and its data. -/
structure Chunk where
  line : List UInt8
  data : List UInt8
  isDigit : ∀ b ∈ line, digits 16 [b] ≠ []
  short : line.length ≤ httpHexStrMaxSize
  size : ofDigits 16 (digits 16 line) = data.length
  notLast : data ≠ []

/-- `0 CR LF CR LF`. -/
def lastChunk : List UInt8 := [48] ++ (crlf ++ crlf)

/-- The bytes of a body. -/
def chunkedBytes : List Chunk → List UInt8
  | [] => lastChunk
  | c :: cs => c.line ++ (crlf ++ (c.data ++ (crlf ++ chunkedBytes cs)))

/-- The data of a body. -/
def chunkedData (cs : List Chunk) : List UInt8 := cs.flatMap Chunk.data

/-- What comes behind a chunk: the chunks after it and the end of the body, or nothing, behind
the last chunk. -/
def bytesBehind : Option (List Chunk) → List UInt8
  | some cs => chunkedBytes cs
  | none => []

/-- The data in it. -/
def dataBehind : Option (List Chunk) → List UInt8
  | some cs => chunkedData cs
  | none => []

/-- The size line that a body starts with, and what follows it. -/
structure StartsWithLine (cs : List Chunk) (line bs : List UInt8) (r : Option (List Chunk)) :
    Prop where
  bytes : chunkedBytes cs = line ++ (crlf ++ (bs ++ (crlf ++ bytesBehind r)))
  data : chunkedData cs = bs ++ dataBehind r
  isDigit : ∀ b ∈ line, digits 16 [b] ≠ []
  notEmpty : line ≠ []
  short : line.length ≤ 8
  value : ofDigits 16 (digits 16 line) = bs.length
  last : r = none → bs = [] ∧ cs = []
  more : bs = [] → r = none
  chunk : ∀ cs', r = some cs' → ∃ c, cs = c :: cs' ∧ c.line = line ∧ c.data = bs

theorem exists_startsWithLine (cs : List Chunk) : ∃ line bs r, StartsWithLine cs line bs r := by
  cases cs with
  | nil =>
      refine ⟨[48], [], none, rfl, rfl, ?_, by simp, by decide, rfl, fun _ => ⟨rfl, rfl⟩,
        fun _ => rfl, fun cs' h => absurd h.symm (Option.some_ne_none cs')⟩
      intro b hb
      obtain rfl := List.mem_singleton.mp hb
      decide
  | cons c cs =>
      refine ⟨c.line, c.data, some cs, rfl, rfl, c.isDigit, ?_, c.short, c.size,
        fun h => absurd h (Option.some_ne_none cs), fun h => absurd h c.notLast, fun cs' h => ?_⟩
      · intro hline
        have hsize := c.size
        rw [hline] at hsize
        exact c.notLast (List.length_eq_zero_iff.mp hsize.symm)
      · obtain rfl := Option.some.inj h
        exact ⟨c, rfl, rfl, rfl⟩

namespace StartsWithLine

variable {cs : List Chunk} {line bs : List UInt8} {r : Option (List Chunk)}

theorem length_ne (h : StartsWithLine cs line bs r) : line.length ≠ 0 :=
  fun h0 => h.notEmpty (List.length_eq_zero_iff.mp h0)

theorem noNul (h : StartsWithLine cs line bs r) : (0 : UInt8) ∉ line :=
  fun h0 => h.isDigit 0 h0 rfl

theorem noCr (h : StartsWithLine cs line bs r) : (13 : UInt8) ∉ line :=
  fun h0 => h.isDigit 13 h0 rfl

theorem strstr_crlf (h : StartsWithLine cs line bs r) (t : List UInt8) :
    strstr (line ++ (crlf ++ t)) crlf = some line.length :=
  strstr_line h.noNul h.noCr (by decide) t

theorem strstr_none (h : StartsWithLine cs line bs r) {q w : List UInt8}
    (hq : q ++ w = chunkedBytes cs) (hlen : q.length < line.length + 2) :
    strstr q crlf = none := by
  refine strstr_none_of_short h.noNul h.noCr (by decide) ?_ ?_
  · have hprefix : q <+: (line ++ crlf) ++ (bs ++ (crlf ++ bytesBehind r)) := by
      rw [List.append_assoc, ← h.bytes, ← hq]
      exact List.prefix_append q w
    refine List.prefix_of_prefix_length_le hprefix (List.prefix_append _ _) ?_
    rw [List.length_append]
    exact hlen.le
  · rw [List.length_append]
    exact hlen

/-- A piece of a body with a line break in it starts with the size line. -/
theorem of_long (h : StartsWithLine cs line bs r) {q w : List UInt8}
    (hq : q ++ w = chunkedBytes cs) (hlen : line.length + 2 ≤ q.length) :
    ∃ q', q = line ++ (crlf ++ q') ∧ q' ++ w = bs ++ (crlf ++ bytesBehind r) := by
  have hall : q ++ w = (line ++ crlf) ++ (bs ++ (crlf ++ bytesBehind r)) := by
    rw [List.append_assoc, ← h.bytes, hq]
  obtain ⟨q', hq', hw⟩ | ⟨q', hq', hw⟩ := List.append_eq_append_iff.mp hall
  · have hnil : q' = [] := by
      refine List.length_eq_zero_iff.mp ?_
      have := congrArg List.length hq'
      simp only [List.length_append] at this
      have h2 : crlf.length = 2 := rfl
      omega
    subst hnil
    refine ⟨[], ?_, by simpa using hw⟩
    simpa using hq'.symm
  · refine ⟨q', ?_, hw.symm⟩
    rw [hq', List.append_assoc]

/-- Without a line break the size line goes on. -/
theorem lt_of_none (h : StartsWithLine cs line bs r) {q w : List UInt8}
    (hq : q ++ w = chunkedBytes cs) (hnone : strstr q crlf = none) :
    q.length < line.length + 2 := by
  by_contra hlen
  obtain ⟨q', rfl, -⟩ := h.of_long hq (Nat.not_lt.mp hlen)
  exact Option.some_ne_none _ ((h.strstr_crlf q').symm.trans hnone)

theorem strtoul_line (h : StartsWithLine cs line bs r) (hfit : bs.length < 4294967296) :
    strtoul 16 line = bs.length := by
  rw [strtoul_hex h.isDigit (by rw [h.value]; exact hfit), h.value]

end StartsWithLine

theorem chunkedBytes_ne_nil (cs : List Chunk) : chunkedBytes cs ≠ [] := by
  obtain ⟨line, bs, r, hl⟩ := exists_startsWithLine cs
  rw [hl.bytes]
  exact fun h => hl.notEmpty (List.append_eq_nil_iff.mp h).1

/-- A line break, at the start. -/
theorem strstr_lineBreak (t : List UInt8) : strstr (crlf ++ t) crlf = some 0 :=
  strstr_line (s := []) (by simp) (by simp) (by decide) t

/-- A piece off the end of a body has the whole of the last chunk, or less than its length. -/
theorem lastChunk_suffix {cs : List Chunk} {v q : List UInt8} (h : v ++ q = chunkedBytes cs)
    (hlen : 5 ≤ q.length) : lastChunk <:+ q := by
  have hend : lastChunk <:+ chunkedBytes cs := by
    clear h
    induction cs with
    | nil => exact List.suffix_refl _
    | cons c cs ih =>
        refine ih.trans ⟨c.line ++ (crlf ++ (c.data ++ crlf)), ?_⟩
        simp [chunkedBytes]
  exact List.suffix_of_suffix_length_le hend ⟨v, h⟩ hlen

/-! ## Size lines in pieces -/

/-- What the decoder adds up of a chunk, its size line and the line breaks stays below 2^32. -/
def Chunk.Fits (c : Chunk) : Prop := c.line.length + c.data.length + 4 < 4294967296

/-- A piece of `n` bytes with `m` bytes behind it has the whole size line of `c`, with its line
break; `after` are the chunks behind `c`.  All is counted from the end of the body. -/
def LineWithin (c : Chunk) (after : List Chunk) (n m : Nat) : Prop :=
  m ≤ c.data.length + 2 + (chunkedBytes after).length ∧
    (chunkedBytes (c :: after)).length ≤ n + m

/-- A chunk whose size line is whole in one of the pieces fits. -/
def LinesFit (cs : List Chunk) (ps : List (List UInt8)) : Prop :=
  ∀ c after, c :: after <:+ cs → ∀ q rest, q :: rest <:+ ps →
    LineWithin c after q.length rest.flatten.length → c.Fits

/-- The chunks that are still to come behind the one that the decoder is in. -/
def chunksBehind (r : Option (List Chunk)) : List Chunk := r.getD []

/-- A chunk whose size line is whole in `n` bytes fits. -/
def PieceFits (r : Option (List Chunk)) (n m : Nat) : Prop :=
  ∀ c after, c :: after <:+ chunksBehind r → LineWithin c after n m → c.Fits

theorem length_chunkedBytes (c : Chunk) (after : List Chunk) :
    (chunkedBytes (c :: after)).length =
      c.line.length + 2 + (c.data.length + 2 + (chunkedBytes after).length) := by
  simp only [chunkedBytes, List.length_append, crlf, List.length_cons, List.length_nil]
  omega

theorem length_chunkedBytes_le {cs cs' : List Chunk} (h : cs <:+ cs') :
    (chunkedBytes cs).length ≤ (chunkedBytes cs').length := by
  induction cs' with
  | nil =>
      rw [List.suffix_nil.mp h]
  | cons c cs' ih =>
      rcases List.suffix_cons_iff.mp h with rfl | h
      · exact Nat.le_refl _
      · have hle := ih h
        rw [length_chunkedBytes]
        omega

/-- In nothing there is no size line. -/
theorem pieceFits_zero (r : Option (List Chunk)) (m : Nat) : PieceFits r 0 m := by
  rintro c after - ⟨hm, hn⟩
  rw [length_chunkedBytes] at hn
  omega

/-- From one place of the decoder in a piece, with `n` bytes of it to come, to another; `m` bytes
are behind the piece.  A chunk that comes behind the first place comes behind the other, if all of
it is still to come there. -/
structure Onward (m : Nat) (r : Option (List Chunk)) (n : Nat) (r' : Option (List Chunk))
    (n' : Nat) : Prop where
  suffix : chunksBehind r' <:+ chunksBehind r
  le : n' ≤ n
  comes : ∀ c after, c :: after <:+ chunksBehind r →
    (chunkedBytes (c :: after)).length ≤ n' + m → c :: after <:+ chunksBehind r'

theorem Onward.refl (m : Nat) (r : Option (List Chunk)) {n n' : Nat} (h : n' ≤ n) :
    Onward m r n r n' :=
  ⟨List.suffix_refl _, h, fun _ _ hc _ => hc⟩

theorem Onward.trans {m n n' n'' : Nat} {r r' r'' : Option (List Chunk)}
    (h : Onward m r n r' n') (h' : Onward m r' n' r'' n'') : Onward m r n r'' n'' :=
  ⟨h'.suffix.trans h.suffix, h'.le.trans h.le, fun c after hc hlen =>
    h'.comes c after (h.comes c after hc (hlen.trans (Nat.add_le_add_right h'.le m))) hlen⟩

theorem PieceFits.onward {m n n' : Nat} {r r' : Option (List Chunk)} (ho : Onward m r n r' n')
    (h : PieceFits r n m) : PieceFits r' n' m :=
  fun c after hc hline => h c after (hc.trans ho.suffix)
    ⟨hline.1, hline.2.trans (Nat.add_le_add_right ho.le m)⟩

/-- A size line that is not whole in the piece is of no matter. -/
theorem PieceFits.of_onward {m n n' : Nat} {r r' : Option (List Chunk)}
    (ho : Onward m r n r' n') (hbehind : (bytesBehind r').length ≤ n' + m)
    (hfirst : ∀ c after, c :: after <:+ chunksBehind r → LineWithin c after n m →
      c :: after <:+ chunksBehind r' ∨ c.Fits)
    (h : PieceFits r' n' m) : PieceFits r n m := by
  intro c after hc hline
  rcases hfirst c after hc hline with hc' | hfits
  · refine h c after hc' ⟨hline.1, ?_⟩
    cases r' with
    | none => exact absurd (List.suffix_nil.mp hc') (List.cons_ne_nil _ _)
    | some cs => exact (length_chunkedBytes_le hc').trans hbehind
  · exact hfits

/-- Where all size lines begin behind the piece, none is whole in it. -/
theorem pieceFits_behind {r : Option (List Chunk)} {n m : Nat}
    (h : (bytesBehind r).length ≤ m) : PieceFits r n m := by
  rintro c after hc ⟨hm, -⟩
  cases r with
  | none => exact absurd (List.suffix_nil.mp hc) (List.cons_ne_nil _ _)
  | some cs =>
      have hle := (length_chunkedBytes_le hc).trans h
      rw [length_chunkedBytes] at hle
      omega

/-- Before the next size line. -/
theorem pieceFits_iff_of_le {r : Option (List Chunk)} {n n' m : Nat} (hn : n' ≤ n)
    (hbehind : (bytesBehind r).length ≤ n' + m) : PieceFits r n m ↔ PieceFits r n' m :=
  ⟨.onward (.refl m r hn), .of_onward (.refl m r hn) hbehind fun _ _ hc _ => Or.inl hc⟩

section

variable {cs : List Chunk} {line bs : List UInt8} {r : Option (List Chunk)} {n n' m : Nat}

/-- **Past a size line.** -/
theorem StartsWithLine.onward (h : StartsWithLine cs line bs r)
    (hpast : n' + m < (chunkedBytes cs).length) (hn : n' ≤ n) : Onward m (some cs) n r n' := by
  cases r with
  | none =>
      obtain rfl := (h.last rfl).2
      exact ⟨List.suffix_refl _, hn, fun c after hc _ => hc⟩
  | some cs' =>
      obtain ⟨c, rfl, -, -⟩ := h.chunk cs' rfl
      refine ⟨List.suffix_cons c cs', hn, fun c' after hc hlen => ?_⟩
      rcases List.suffix_cons_iff.mp hc with heq | hc
      · rw [heq] at hlen
        omega
      · exact hc

/-- A piece that ends in the first size line has none whole. -/
theorem StartsWithLine.pieceFits_short (h : StartsWithLine cs line bs r)
    (hall : (chunkedBytes cs).length = n + m) (hline : n < line.length + 2) :
    PieceFits (some cs) n m := by
  rintro c after hc ⟨hm, -⟩
  cases r with
  | none =>
      obtain rfl := (h.last rfl).2
      exact absurd (List.suffix_nil.mp hc) (List.cons_ne_nil _ _)
  | some cs' =>
      obtain ⟨c₀, rfl, rfl, -⟩ := h.chunk cs' rfl
      rw [length_chunkedBytes] at hall
      rcases List.suffix_cons_iff.mp hc with heq | hc
      · obtain ⟨rfl, rfl⟩ := List.cons.inj heq
        omega
      · have hle := length_chunkedBytes_le hc
        rw [length_chunkedBytes] at hle
        omega

/-- A piece that begins within a size line, and ends behind it, has the size lines behind it. -/
theorem StartsWithLine.pieceFits_cut (h : StartsWithLine cs line bs r)
    (hcut : n + m < (chunkedBytes cs).length) (hn : n' ≤ n)
    (hbehind : (bytesBehind r).length ≤ n' + m) :
    PieceFits (some cs) n m ↔ PieceFits r n' m := by
  have ho := h.onward (n := n) ((Nat.add_le_add_right hn m).trans_lt hcut) hn
  refine ⟨.onward ho, .of_onward ho hbehind fun c after hc hline => Or.inl ?_⟩
  exact (h.onward (n := n) hcut (Nat.le_refl n)).comes c after hc hline.2

/-- The size lines of a piece fit exactly if the first one does, and those behind it. -/
theorem StartsWithLine.pieceFits_whole (h : StartsWithLine cs line bs r)
    (hall : (chunkedBytes cs).length = n + m) (hline : line.length + 2 ≤ n) (hn : n' < n)
    (hbehind : (bytesBehind r).length ≤ n' + m) :
    PieceFits (some cs) n m ↔ line.length + bs.length + 4 < 4294967296 ∧ PieceFits r n' m := by
  have ho := h.onward (n := n) (by omega : n' + m < _) hn.le
  cases r with
  | none =>
      obtain ⟨rfl, rfl⟩ := h.last rfl
      have hshort := h.short
      refine iff_of_true (fun c after hc => ?_) ⟨?_, fun c after hc => ?_⟩
      · exact absurd (List.suffix_nil.mp hc) (List.cons_ne_nil _ _)
      · rw [List.length_nil]
        omega
      · exact absurd (List.suffix_nil.mp hc) (List.cons_ne_nil _ _)
  | some cs' =>
      obtain ⟨c, rfl, rfl, rfl⟩ := h.chunk cs' rfl
      have hwithin : LineWithin c cs' n m := by
        rw [length_chunkedBytes] at hall
        exact ⟨by omega, by rw [length_chunkedBytes]; omega⟩
      constructor
      · intro hfits
        exact ⟨hfits c cs' (List.suffix_refl _) hwithin, hfits.onward ho⟩
      · rintro ⟨hfit, hfits⟩
        refine hfits.of_onward ho hbehind fun c' after hc _ => ?_
        rcases List.suffix_cons_iff.mp hc with heq | hc
        · obtain ⟨rfl, rfl⟩ := List.cons.inj heq
          exact Or.inr hfit
        · exact Or.inl hc

end

theorem linesFit_nil (cs : List Chunk) : LinesFit cs [] :=
  fun _ _ _ _ _ hq => absurd (List.suffix_nil.mp hq) (List.cons_ne_nil _ _)

theorem linesFit_cons {r : Option (List Chunk)} {p : List UInt8} {ps : List (List UInt8)} :
    LinesFit (chunksBehind r) (p :: ps) ↔
      PieceFits r p.length ps.flatten.length ∧ LinesFit (chunksBehind r) ps := by
  constructor
  · intro hall
    exact ⟨fun c after hc => hall c after hc p ps (List.suffix_refl _), fun c after hc q rest hq =>
      hall c after hc q rest (hq.trans (List.suffix_cons p ps))⟩
  · rintro ⟨hp, hall⟩ c after hc q rest hq
    rcases List.suffix_cons_iff.mp hq with heq | hq
    · obtain ⟨rfl, rfl⟩ := List.cons.inj heq
      exact hp c after hc
    · exact hall c after hc q rest hq

/-- The chunks that are gone have no size line whole in what is still to come. -/
theorem linesFit_iff_of_comes {cs cs' : List Chunk} {ps : List (List UInt8)}
    (hsuffix : cs' <:+ cs)
    (hcomes : ∀ c after, c :: after <:+ cs →
      (chunkedBytes (c :: after)).length ≤ ps.flatten.length → c :: after <:+ cs') :
    LinesFit cs' ps ↔ LinesFit cs ps := by
  constructor
  · intro hall c after hc q rest hq hline
    refine hall c after (hcomes c after hc ?_) q rest hq hline
    obtain ⟨qs, rfl⟩ := hq
    have hlen := hline.2
    rw [List.flatten_append, List.flatten_cons, List.length_append, List.length_append]
    omega
  · exact fun hall c after hc => hall c after (hc.trans hsuffix)

/-! ## Where the decoder stands -/

/-- With `k` bytes of a chunk to come, what is still to come and the data in it; `r` is what
comes behind the chunk. -/
inductive Mid : Nat → List UInt8 → List UInt8 → Option (List Chunk) → Prop
  | line (r : Option (List Chunk)) : Mid 0 (bytesBehind r) (dataBehind r) r
  | lineBreak (r : Option (List Chunk)) : Mid 0 (crlf ++ bytesBehind r) (dataBehind r) r
  | data {bs : List UInt8} (cs : List Chunk) : bs ≠ [] →
      Mid bs.length (bs ++ (crlf ++ chunkedBytes cs)) (bs ++ chunkedData cs) (some cs)

theorem Mid.nil {k : Nat} {d : List UInt8} {r : Option (List Chunk)} (h : Mid k [] d r) :
    k = 0 ∧ d = [] ∧ r = none := by
  generalize hw : ([] : List UInt8) = w at h
  cases h with
  | line r =>
      cases r with
      | none => exact ⟨rfl, rfl, rfl⟩
      | some cs => exact absurd hw.symm (chunkedBytes_ne_nil cs)
  | lineBreak r => exact absurd hw (by simp [crlf])
  | data cs hne => exact absurd (List.append_eq_nil_iff.mp hw.symm).1 hne

theorem Mid.zero {v d : List UInt8} {r : Option (List Chunk)} (h : Mid 0 v d r) :
    (v = bytesBehind r ∨ v = crlf ++ bytesBehind r) ∧ d = dataBehind r := by
  generalize hk : 0 = k at h
  cases h with
  | line r => exact ⟨Or.inl rfl, rfl⟩
  | lineBreak r => exact ⟨Or.inr rfl, rfl⟩
  | data cs hne => exact absurd (List.length_eq_zero_iff.mp hk.symm) hne

theorem Mid.length_bytesBehind {k : Nat} {v d : List UInt8} {r : Option (List Chunk)}
    (h : Mid k v d r) : (bytesBehind r).length ≤ v.length := by
  cases h with
  | line r => exact Nat.le_refl _
  | lineBreak r => exact (List.suffix_append crlf _).length_le
  | @data bs cs hne =>
      exact ((List.suffix_append crlf _).trans (List.suffix_append bs _)).length_le

/-- A piece of what starts with a line break has all of it, or none that is seen. -/
theorem lineBreak_cases {q w v : List UInt8} (h : q ++ w = crlf ++ v) :
    (q.length < 2 ∧ strstr q crlf = none) ∨ ∃ q', q = crlf ++ q' ∧ q' ++ w = v := by
  match q with
  | [] => exact Or.inl ⟨by decide, by decide⟩
  | [a] =>
      obtain rfl : a = 13 := by
        injection h
      exact Or.inl ⟨by decide, by decide⟩
  | a :: b :: q' =>
      obtain ⟨rfl, hb⟩ := List.cons.inj h
      obtain ⟨rfl, hv⟩ := List.cons.inj hb
      exact Or.inr ⟨q', rfl, hv⟩

/-- In a chunk, or behind it. -/
theorem Mid.inChunk {bs : List UInt8} {r : Option (List Chunk)} (hr : r = none → bs = []) :
    Mid bs.length (bs ++ (crlf ++ bytesBehind r)) (bs ++ dataBehind r) r := by
  by_cases hbs : bs = []
  · subst hbs
    exact .lineBreak r
  · cases r with
    | none => exact absurd (hr rfl) hbs
    | some cs => exact .data cs hbs

/-- The line break behind a chunk is skipped where all of it is there. -/
def skipCrlf (k : Nat) (q : List UInt8) : List UInt8 := if k = 0 ∧ 2 ≤ q.length then q.drop 2 else q

/-- **A piece of a chunk** is taken off: as much of the data as there is, and the line break. -/
theorem Mid.take {bs q w : List UInt8} {r : Option (List Chunk)} {t : Nat}
    (hr : r = none → bs = []) (h : q ++ w = bs ++ (crlf ++ bytesBehind r))
    (ht : t = min bs.length q.length) :
    q.take t = bs.take t ∧ (bs.length - t ≠ 0 → q.drop t = []) ∧
      Mid (bs.length - t) (skipCrlf (bs.length - t) (q.drop t) ++ w)
        (bs.drop t ++ dataBehind r) r := by
  obtain ⟨bs', hbs, hw⟩ | ⟨q', hq, hw⟩ := List.append_eq_append_iff.mp h
  · -- the chunk goes on behind the piece
    subst hbs
    have htq : t = q.length := by
      rw [ht, List.length_append]
      omega
    subst htq
    have hlen : (q ++ bs').length - q.length = bs'.length := by
      rw [List.length_append]
      omega
    have hskip : skipCrlf bs'.length ([] : List UInt8) = [] := if_neg fun h => by simp at h
    rw [List.take_length, List.take_left, List.drop_length, List.drop_left, hlen, hskip, hw,
      List.nil_append]
    refine ⟨rfl, fun _ => rfl, .inChunk fun hnone => ?_⟩
    exact (List.append_eq_nil_iff.mp (hr hnone)).2
  · subst hq
    have htb : t = bs.length := by
      rw [ht, List.length_append]
      omega
    subst htb
    rw [List.take_left, List.take_length, List.drop_left, List.drop_length, Nat.sub_self,
      List.nil_append]
    refine ⟨rfl, fun h => absurd rfl h, ?_⟩
    rcases lineBreak_cases hw.symm with ⟨hlen, -⟩ | ⟨q'', rfl, htail⟩
    · have hskip : skipCrlf 0 q' = q' := if_neg fun h => Nat.not_le.mpr hlen h.2
      rw [hskip, ← hw]
      exact .lineBreak r
    · have hskip : skipCrlf 0 (crlf ++ q'') = q'' := if_pos ⟨rfl, by simp [crlf]⟩
      rw [hskip, htail]
      exact .line r

/-- Without a line break there are fewer bytes than the tail has room for. -/
theorem Mid.length_le {q w d : List UInt8} {r : Option (List Chunk)} (h : Mid 0 (q ++ w) d r)
    (hq : strstr q crlf = none) : q.length ≤ 9 := by
  obtain ⟨hv | hv, -⟩ := h.zero
  · cases r with
    | none =>
        rw [(List.append_eq_nil_iff.mp hv).1]
        exact Nat.zero_le 9
    | some cs =>
        obtain ⟨line, bs, r, hl⟩ := exists_startsWithLine cs
        have hlen := hl.lt_of_none hv hq
        have hshort := hl.short
        omega
  · rcases lineBreak_cases hv with ⟨hlen, -⟩ | ⟨q', rfl, -⟩
    · omega
    · exact absurd ((strstr_lineBreak q').symm.trans hq) (Option.some_ne_none 0)

/-- Behind the last chunk there is a line break at most. -/
theorem Mid.length_behind {k : Nat} {v d : List UInt8} (h : Mid k v d none) : v.length ≤ 2 := by
  generalize hr : (none : Option (List Chunk)) = r at h
  cases h with
  | line r =>
      subst hr
      exact Nat.zero_le 2
  | lineBreak r =>
      subst hr
      exact Nat.le_refl 2
  | data cs hne => exact absurd hr.symm (Option.some_ne_none cs)

end IntercomSalve
