/-
# `ChunkDecoder` — chunked bodies, in whatever pieces

`http_chunkAppend` gets a body in pieces.  Between two calls it keeps how much of a chunk is still
to come, or up to twelve bytes that it could not make anything of yet (`Keeps`).
`httpChunkAppend_spec` tells what a call makes of a piece, wherever it is cut.

The data come out right whatever the pieces.  That the body is complete is a different matter: the
decoder asks whether exactly `0 CR LF CR LF` is left of the piece, and has no other way to tell.

    decoded, and complete with the last byte  ⟺  there is room for the data, no piece is empty,
        the chunks fit whose size lines are whole in a piece, and the last piece has the whole of
        `0 CR LF CR LF`                                                (`decodesBody_iff`)

A chunk does not fit where its size line, its data and four bytes more are 2^32 bytes or above:
the loop adds them up in 32 bits, and copies from behind the piece (`allReadOnly_iff`).  A size
line that is cut between two calls is not added up.
-/
import IntercomSalve.ChunkLoop
import IntercomSalve.Flashing

namespace IntercomSalve

open CString

/-! ## Between two calls -/

namespace HttpClient

/-- Between two calls: the bytes `s` are kept, with no line break in them, and with them what is
still to come is `w`, with the data `d`. -/
structure Keeps (h : HttpClient) (s w d : List UInt8) (r : Option (List Chunk)) : Prop where
  opened : h.Opened
  rspReach : h.rspReach = false
  cnt : h.gHttpChunkTail.cnt = s.length
  buf : h.gHttpChunkTail.buf.slice 0 s.length = s
  noBreak : s ≠ [] → h.httpCurChunkLen = 0 ∧ strstr s crlf = none
  mid : Mid h.httpCurChunkLen (s ++ w) d r
  room : h.stored.length + d.length < 4294967296

/-- At the end of the body nothing is kept and nothing is missing. -/
theorem Keeps.atEnd {h : HttpClient} {s d : List UInt8} {r : Option (List Chunk)}
    (hk : Keeps h s [] d r) : d = [] ∧ r = none := by
  have hmid := hk.mid
  rw [List.append_nil] at hmid
  by_cases hs : s = []
  · rw [hs] at hmid
    exact hmid.nil.2
  · obtain ⟨h0, hbreak⟩ := hk.noBreak hs
    rw [h0] at hmid
    obtain ⟨hv | hv, -⟩ := hmid.zero
    · cases r with
      | none => exact absurd hv hs
      | some cs =>
          obtain ⟨line, bs, r, hl⟩ := exists_startsWithLine cs
          have hall : s ++ [] = chunkedBytes cs := (List.append_nil s).trans hv
          have hlen := hl.lt_of_none hall hbreak
          rw [← List.append_nil s, hall.trans hl.bytes] at hlen
          simp only [List.length_append, crlf, List.length_cons] at hlen
          omega
    · rw [hv] at hbreak
      exact absurd ((strstr_lineBreak _).symm.trans hbreak) (Option.some_ne_none 0)

/-- The bytes that are left over are in the piece. -/
theorem Buffered.httpChunkKeep {p b : List UInt8} (hb : Buffered p b) (h : HttpClient)
    {iss left : Nat} (hend : iss + left ≤ p.length) :
    h.httpChunkKeep b iss left = h.httpChunkKeep p iss left := by
  have hcopy : h.gHttpChunkTail.buf.memcpy 0 ((Mem.ofList b).ptr iss) left =
      h.gHttpChunkTail.buf.memcpy 0 ((Mem.ofList p).ptr iss) left :=
    Mem.memcpy_congr _ _ fun k hk => hb.ofList (show iss + k < p.length by omega)
  unfold HttpClient.httpChunkKeep
  rw [hcopy]

/-- Nothing of what is kept goes where the body is stored. -/
theorem target_httpChunkKeep (h : HttpClient) (input : List UInt8) (iss left : Nat) :
    (h.httpChunkKeep input iss left).target = h.target := by
  unfold httpChunkKeep
  split <;> rfl

/-- **What is left over** is kept. -/
theorem httpChunkKeep_spec {h : HttpClient} {input w d : List UInt8} {iss : Nat}
    {r : Option (List Chunk)} (hat : PieceAt input w iss h d r) (hcnt : h.gHttpChunkTail.cnt = 0)
    (hstop : input.drop iss ≠ [] →
      h.httpCurChunkLen = 0 ∧ strstr (input.drop iss) crlf = none) :
    ∃ s h', (∀ b, Buffered input b → h.httpChunkKeep b iss (input.drop iss).length = h') ∧
      Keeps h' s w d r ∧ h'.stored = h.stored ∧ h'.receiveStatus = h.receiveStatus := by
  have hmid := hat.mid
  by_cases hq : input.drop iss = []
  · rw [hq] at hmid
    refine ⟨[], h, fun b _ => ?_, ⟨hat.opened, hat.rspReach, hcnt, rfl, fun hne => absurd rfl hne,
      hmid, hat.room⟩, rfl, rfl⟩
    unfold httpChunkKeep
    rw [hq]
    exact if_neg fun h0 => absurd h0.1 (Nat.lt_irrefl 0)
  · obtain ⟨hk, hstr⟩ := hstop hq
    have hlen : (input.drop iss).length ≤ 9 := Mid.length_le (hk ▸ hmid) hstr
    have hfits : (input.drop iss).length ≤ httpChunkTailSize - 1 := hlen.trans (by decide)
    have hkeep : h.httpChunkKeep input iss (input.drop iss).length = _ :=
      if_pos ⟨List.length_pos_iff.mpr hq, hfits⟩
    have hend : iss + (input.drop iss).length ≤ input.length := by
      have hle := hat.le
      rw [List.length_drop]
      omega
    refine ⟨input.drop iss, _, fun b hb => (hb.httpChunkKeep h hend).trans hkeep,
      ⟨hat.opened, hat.rspReach, ?_, ?_, fun _ => ⟨hk, hstr⟩, hmid, hat.room⟩, rfl, rfl⟩
    · show h.gHttpChunkTail.cnt + _ = _
      rw [hcnt, Nat.zero_add]
    · show (Mem.memcpy _ 0 _ _).slice 0 _ = _
      rw [Mem.slice_memcpy, slice_input input iss (Nat.le_refl _), List.take_length]

/-! ## The tail -/

/-- The tail `s`, with as much of the input behind it as it has room for. -/
def tailString (s input : List UInt8) : List UInt8 := s ++ input.take (12 - s.length)

/-- The tail buffer, once `t` bytes of the input are in it. -/
def tailBuf (h : HttpClient) (input : List UInt8) (t : Nat) : Mem :=
  (h.gHttpChunkTail.buf.memcpy h.gHttpChunkTail.cnt (Mem.ofList input) t).memcpy
    (h.gHttpChunkTail.cnt + t) (Mem.ofList [0]) 1

/-- `gHttpChunkTail` is cleared. -/
def clearTail (h : HttpClient) : HttpClient :=
  { h with gHttpChunkTail := { buf := fun _ => 0, cnt := 0 } }

/-- What a call does with a tail that is a part of a size line. -/
def tailLine (h : HttpClient) (s input : List UInt8) (t : Nat) :
    Except (Bool × HttpClient) (Nat × Nat × HttpClient) :=
  match strstr (tailString s input) crlf with
  | some n =>
    if 8 < n then .error (false, { h with gHttpChunkTail := ⟨h.tailBuf input t, s.length⟩ })
    else
      let v := strtoul 16 ((tailString s input).take n)
      .ok (sub32 (n + 2) s.length, sub32 input.length (sub32 (n + 2) s.length),
        { h.clearTail with httpCurChunkLen := v, bodySize := v })
  | none => .error (true, { h with gHttpChunkTail := ⟨h.tailBuf input t, s.length + t⟩ })

section

variable {h : HttpClient} {s w d input : List UInt8} {r : Option (List Chunk)} {t : Nat}

theorem tailBuf_slice (hk : Keeps h s w d r) (hs : s.length ≤ 9)
    (ht : t = min (12 - s.length) input.length) :
    ∃ junk, (h.tailBuf input t).slice 0 httpChunkTailSize = tailString s input ++ 0 :: junk := by
  have hfront : (h.tailBuf input t).slice 0 (s.length + t + 1) = tailString s input ++ [0] := by
    have hptr : (Mem.ofList input).ptr 0 = Mem.ofList input :=
      funext fun j => congrArg _ (Nat.zero_add j)
    have hinput : (Mem.ofList input).slice 0 t = input.take t := by
      have hslice := slice_input input 0 (n := t) (by rw [List.drop_zero]; omega)
      rwa [hptr, List.drop_zero] at hslice
    have htake : input.take t = input.take (12 - s.length) := by
      rw [ht, ← List.take_take, List.take_length]
    unfold tailBuf
    rw [hk.cnt, Mem.slice_memcpy_end, Mem.slice_memcpy_end, hk.buf, hinput, htake]
    rfl
  have hsize : httpChunkTailSize = s.length + t + 1 + (12 - s.length - t) := by
    show 13 = _
    omega
  rw [hsize, Mem.slice_add, hfront, List.append_assoc]
  exact ⟨_, rfl⟩

/-- The first part of a call with a tail. -/
theorem httpChunkTail_eq (hk : Keeps h s w d r) (hne : s ≠ []) (hs : s.length ≤ 9)
    (ht : t = min (12 - s.length) input.length) :
    h.httpChunkTail input input.length =
      if h.tailBuf input t 0 = 13 ∧ h.tailBuf input t 1 = 10 then
        .ok (1, input.length - 1, h.clearTail)
      else h.tailLine s input t := by
  obtain ⟨junk, hslice⟩ := tailBuf_slice hk hs ht
  have hpos : s.length ≠ 0 := fun h0 => hne (List.length_eq_zero_iff.mp h0)
  have hspace : sub32 (httpChunkTailSize - 1) s.length = 12 - s.length :=
    sub32_of_le (show s.length ≤ 12 by omega)
  have hmin : (if 12 - s.length < input.length then 12 - s.length else input.length) = t := by
    rw [ht]
    split <;> omega
  have hstr : strstr ((h.tailBuf input t).slice 0 httpChunkTailSize) crlf =
      strstr (tailString s input) crlf := by
    rw [hslice, strstr, cString_append_nul]
    rfl
  have htake : ∀ n, strstr (tailString s input) crlf = some n →
      ((h.tailBuf input t).slice 0 httpChunkTailSize).take n = (tailString s input).take n := by
    intro n hn
    have hle := occurs_le hn
    have hstring : (cString (tailString s input)).length ≤ (tailString s input).length :=
      (List.takeWhile_sublist _).length_le
    rw [hslice, List.take_append_of_le_length (by omega)]
  have hbuf : (h.gHttpChunkTail.buf.memcpy s.length (Mem.ofList input) t).memcpy (s.length + t)
      (Mem.ofList [0]) 1 = h.tailBuf input t := by
    unfold tailBuf
    rw [hk.cnt]
  unfold httpChunkTail tailLine
  simp only [hk.cnt, hspace, hmin, hbuf, hstr]
  rw [if_neg hpos]
  by_cases hcr : h.tailBuf input t 0 = 13 ∧ h.tailBuf input t 1 = 10
  · rw [if_pos hcr, if_pos hcr]
    rfl
  · rw [if_neg hcr, if_neg hcr]
    cases hn : strstr (tailString s input) crlf with
    | none => rfl
    | some n =>
        dsimp only
        rw [htake n hn]
        rfl

end

/-- The tail takes its bytes from the piece. -/
theorem Buffered.httpChunkTail {p b : List UInt8} (hb : Buffered p b) (h : HttpClient) :
    h.httpChunkTail b p.length = h.httpChunkTail p p.length := by
  have hmin : ∀ k : Nat, (if k < p.length then k else p.length) ≤ p.length := by
    intro k
    split <;> omega
  have hcopy := fun k => Mem.memcpy_congr h.gHttpChunkTail.buf h.gHttpChunkTail.cnt
    fun j (hj : j < if k < p.length then k else p.length) => hb.ofList (hj.trans_le (hmin k))
  unfold HttpClient.httpChunkTail
  simp only [hcopy]

/-- How the first part of a call ends, with the piece `p` and `w` behind it. -/
inductive TailEnds (h : HttpClient) (p w d : List UInt8) (r : Option (List Chunk)) :
    Except (Bool × HttpClient) (Nat × Nat × HttpClient) → Prop
  | waits {h' : HttpClient} {s : List UInt8} : Keeps h' s w d r → h'.stored = h.stored →
      h'.receiveStatus = h.receiveStatus → w ≠ [] → PieceFits r p.length w.length →
      TailEnds h p w d r (.error (true, h'))
  | goesOn {iss : Nat} {h' : HttpClient} {r' : Option (List Chunk)} : PieceAt p w iss h' d r' →
      h'.stored = h.stored → h'.receiveStatus = h.receiveStatus → h'.gHttpChunkTail.cnt = 0 →
      (r' = none → w = [] → p.length < 5) →
      Onward w.length r p.length r' (p.drop iss).length →
      (PieceFits r p.length w.length ↔ PieceFits r' (p.drop iss).length w.length) →
      TailEnds h p w d r (.ok (iss, (p.drop iss).length, h'))

/-- **The tail is a CR**, and the piece starts with the LF. -/
theorem httpChunkTail_lineBreak {h : HttpClient} {s p w d : List UInt8} {r : Option (List Chunk)}
    (hk : Keeps h s (p ++ w) d r) (hp : p ≠ []) (hs : s ≠ [])
    (hv : s ++ (p ++ w) = crlf ++ bytesBehind r) (hd : d = dataBehind r) :
    TailEnds h p w d r (h.httpChunkTail p p.length) := by
  obtain ⟨h0, hbreak⟩ := hk.noBreak hs
  rcases lineBreak_cases hv with ⟨hlen, -⟩ | ⟨s', rfl, -⟩
  · obtain ⟨a, rfl⟩ : ∃ a, s = [a] := by
      match s, hs, hlen with
      | [a], _, _ => exact ⟨a, rfl⟩
    obtain ⟨b, p, rfl⟩ := List.exists_cons_of_ne_nil hp
    obtain ⟨rfl, hv₁⟩ := List.cons.inj hv
    obtain ⟨rfl, hrest⟩ := List.cons.inj hv₁
    have hw : p ++ w = bytesBehind r := hrest
    obtain ⟨junk, hslice⟩ := tailBuf_slice hk (by decide) rfl
    have hx : tailString [13] (10 :: p) = 13 :: 10 :: p.take 10 := rfl
    rw [hx, List.cons_append, List.cons_append] at hslice
    obtain ⟨hb0, hslice⟩ := List.cons.inj ((Mem.slice_succ _ 0 12).symm.trans hslice)
    obtain ⟨hb1, -⟩ := List.cons.inj ((Mem.slice_succ _ 1 11).symm.trans hslice)
    rw [httpChunkTail_eq hk hs (by decide) rfl, if_pos ⟨hb0, hb1⟩]
    refine TailEnds.goesOn
      ⟨hk.opened, hk.rspReach, Nat.succ_le_succ (Nat.zero_le _), ?_, hk.room⟩ rfl rfl rfl
      (fun hnone hend => ?_) (.refl _ _ (Nat.le_succ _))
      (pieceFits_iff_of_le (Nat.le_succ _) ?_)
    · show Mid h.httpCurChunkLen (p ++ w) d r
      rw [h0, hd, hw]
      exact .line r
    · subst hnone hend
      rw [(List.append_eq_nil_iff.mp hw).1]
      decide
    · show (bytesBehind r).length ≤ p.length + w.length
      rw [← hw, List.length_append]
  · exact absurd ((strstr_lineBreak s').symm.trans hbreak) (Option.some_ne_none 0)

section

variable {h : HttpClient} {s p w d line bs : List UInt8} {cs : List Chunk}
  {r : Option (List Chunk)} {t : Nat}

/-- **The size line goes on behind the piece.** -/
theorem tailLine_part (hk : Keeps h s (p ++ w) d (some cs)) (hs : s ≠ []) (hlong : s.length ≤ 9)
    (hl : StartsWithLine cs line bs r) (hall : (s ++ p) ++ w = chunkedBytes cs)
    (hlen : (s ++ p).length < line.length + 2) (ht : t = min (12 - s.length) p.length) :
    TailEnds h p w d (some cs) (h.tailLine s p t) := by
  have hline := hl.short
  have hfit : p.length ≤ 12 - s.length := by
    rw [List.length_append] at hlen
    omega
  have hstring : tailString s p = s ++ p := by
    unfold tailString
    rw [List.take_of_length_le hfit]
  have hnone : strstr (s ++ p) crlf = none := hl.strstr_none hall hlen
  have hw : w ≠ [] := by
    rintro rfl
    have hbytes := congrArg List.length (hall.trans hl.bytes)
    simp only [List.length_append, List.append_nil, crlf, List.length_cons] at hbytes hlen
    omega
  have hfits : PieceFits (some cs) p.length w.length := by
    have hpos := List.length_pos_iff.mpr hs
    have hlenall := congrArg List.length hall
    have hlenbytes := congrArg List.length hl.bytes
    rw [List.length_append] at hlen
    simp only [List.length_append, crlf, List.length_cons] at hlenall hlenbytes
    refine (hl.pieceFits_cut ?_ (Nat.zero_le _) ?_).mpr (pieceFits_zero r _)
    all_goals omega
  obtain ⟨junk, hslice⟩ := tailBuf_slice hk hlong ht
  unfold tailLine
  rw [hstring, hnone]
  refine TailEnds.waits (s := s ++ p) ⟨hk.opened, hk.rspReach, ?_, ?_,
    fun _ => ⟨(hk.noBreak hs).1, hnone⟩, ?_, hk.room⟩ rfl rfl hw hfits
  · show s.length + t = _
    rw [ht, Nat.min_eq_right hfit, List.length_append]
  · show (h.tailBuf p _).slice 0 _ = _
    have hsize : httpChunkTailSize = (s ++ p).length + (13 - (s ++ p).length) := by
      show 13 = _
      omega
    rw [hsize, Mem.slice_add, hstring] at hslice
    exact List.append_inj_left hslice (Mem.length_slice _ _ _)
  · show Mid h.httpCurChunkLen (s ++ p ++ w) d (some cs)
    rw [List.append_assoc]
    exact hk.mid

/-- **The size line ends in the piece.** -/
theorem tailLine_whole (hk : Keeps h s (p ++ w) d (some cs)) (hs : s ≠ [])
    (hl : StartsWithLine cs line bs r) (hall : (s ++ p) ++ w = chunkedBytes cs)
    (hd : d = chunkedData cs) (hshort : s.length < line.length + 2)
    (hlen : line.length + 2 ≤ (s ++ p).length) :
    TailEnds h p w d (some cs) (h.tailLine s p t) := by
  have hline := hl.short
  obtain ⟨q, hq, hbytes⟩ := hl.of_long hall hlen
  have hroom := hk.room
  rw [hd, hl.data, List.length_append] at hroom
  have hspace : (s ++ p).length = s.length + p.length := List.length_append
  obtain ⟨x, hx, -⟩ : ∃ x, tailString s p = line ++ (crlf ++ x) ∧
      x ++ (p.drop (12 - s.length) ++ w) = bs ++ (crlf ++ bytesBehind r) := by
    refine hl.of_long ?_ ?_
    · unfold tailString
      rw [← hall, List.append_assoc, ← List.append_assoc (p.take _), List.take_append_drop,
        List.append_assoc]
    · unfold tailString
      rw [List.length_append, List.length_take]
      omega
  have hk₁ : sub32 (line.length + 2) s.length = line.length + 2 - s.length :=
    sub32_of_le hshort.le
  have hk₂ : sub32 p.length (line.length + 2 - s.length) =
      (p.drop (line.length + 2 - s.length)).length := by
    rw [sub32_of_le (show line.length + 2 - s.length ≤ p.length by omega), List.length_drop]
  have hdrop : p.drop (line.length + 2 - s.length) = q := by
    have hfront : s.drop (line.length + 2) = [] := List.drop_of_length_le hshort.le
    have hboth := congrArg (List.drop (line.length + 2)) hq
    rwa [List.drop_append, hfront, List.nil_append, ← List.append_assoc,
      List.drop_left' (by simp [crlf])] at hboth
  unfold tailLine
  rw [hx, hl.strstr_crlf x]
  dsimp only
  rw [if_neg (Nat.not_lt.mpr hline), List.take_left, hl.strtoul_line (by omega), hk₁, hk₂]
  have hpos := List.length_pos_iff.mpr hs
  have hlenall := congrArg List.length hall
  have hlenbytes := congrArg List.length hbytes
  simp only [List.length_append] at hlenall hlenbytes
  have hcut : p.length + w.length < (chunkedBytes cs).length := by omega
  have hle : (p.drop (line.length + 2 - s.length)).length ≤ p.length :=
    (List.drop_sublist _ p).length_le
  have hbehind : (bytesBehind r).length ≤
      (p.drop (line.length + 2 - s.length)).length + w.length := by
    rw [hdrop]
    omega
  refine .goesOn ⟨hk.opened, hk.rspReach, by omega, ?_, hk.room⟩ rfl rfl rfl
    (fun hnone hw => ?_) (hl.onward (by omega) hle) (hl.pieceFits_cut hcut hle hbehind)
  · show Mid bs.length _ d r
    rw [hdrop, hbytes, hd, hl.data]
    exact .inChunk fun hnone => (hl.last hnone).1
  · -- the last chunk, and some of it was in the tail
    have h5 : (chunkedBytes cs).length = 5 := by
      rw [(hl.last hnone).2]
      rfl
    rw [hw, List.length_nil] at hcut
    omega

/-- **The tail is a part of a size line.** -/
theorem httpChunkTail_line (hk : Keeps h s (p ++ w) d (some cs)) (hs : s ≠ [])
    (hv : s ++ (p ++ w) = chunkedBytes cs) (hd : d = chunkedData cs) :
    TailEnds h p w d (some cs) (h.httpChunkTail p p.length) := by
  obtain ⟨h0, hbreak⟩ := hk.noBreak hs
  obtain ⟨line, bs, r, hl⟩ := exists_startsWithLine cs
  have hlong : s.length ≤ 9 := Mid.length_le (h0 ▸ hk.mid) hbreak
  obtain ⟨junk, hslice⟩ := tailBuf_slice (t := min (12 - s.length) p.length) hk hlong rfl
  have hnot : ¬ (h.tailBuf p (min (12 - s.length) p.length) 0 = 13 ∧
      h.tailBuf p (min (12 - s.length) p.length) 1 = 10) := by
    rintro ⟨h13, -⟩
    obtain ⟨a, s, rfl⟩ := List.exists_cons_of_ne_nil hs
    obtain ⟨c, line, rfl⟩ := List.exists_cons_of_ne_nil hl.notEmpty
    obtain ⟨rfl, -⟩ := List.cons.inj (hv.trans hl.bytes)
    obtain ⟨hb0, -⟩ := List.cons.inj ((Mem.slice_succ _ 0 12).symm.trans hslice)
    exact hl.noCr (hb0.symm.trans h13 ▸ List.mem_cons_self)
  have hall : (s ++ p) ++ w = chunkedBytes cs := by rw [List.append_assoc, hv]
  rw [httpChunkTail_eq hk hs hlong rfl, if_neg hnot]
  by_cases hlen : (s ++ p).length < line.length + 2
  · exact tailLine_part hk hs hlong hl hall hlen rfl
  · exact tailLine_whole hk hs hl hall hd (hl.lt_of_none hv hbreak) (Nat.not_lt.mp hlen)

end

/-- **The first part of a call.** -/
theorem httpChunkTail_spec {h : HttpClient} {s p w d : List UInt8} {r : Option (List Chunk)}
    (hk : Keeps h s (p ++ w) d r) (hp : p ≠ []) :
    TailEnds h p w d r (h.httpChunkTail p p.length) := by
  by_cases hs : s = []
  · subst hs
    have hcnt : h.gHttpChunkTail.cnt = 0 := hk.cnt
    have hstart : h.httpChunkTail p p.length = .ok (0, (p.drop 0).length, h) := if_pos hcnt
    rw [hstart]
    refine .goesOn ⟨hk.opened, hk.rspReach, Nat.zero_le _, hk.mid, hk.room⟩ rfl rfl hcnt
      (fun hnone hw => ?_) (.refl _ _ (Nat.le_refl _)) Iff.rfl
    subst hnone hw
    have hlen := hk.mid.length_behind
    rw [List.nil_append, List.append_nil] at hlen
    omega
  · have hmid := hk.mid
    rw [(hk.noBreak hs).1] at hmid
    obtain ⟨hv | hv, hd⟩ := hmid.zero
    · cases r with
      | none => exact absurd (List.append_eq_nil_iff.mp hv).1 hs
      | some cs => exact httpChunkTail_line hk hs hv hd
    · exact httpChunkTail_lineBreak hk hp hs hv hd

/-! ## A call -/

/-- How a call ends with the piece `p` of a body and `w` behind it. -/
inductive CallEnds (h : HttpClient) (p w d : List UInt8) (r : Option (List Chunk)) :
    Bool × HttpClient → Prop
  | complete {h' : HttpClient} : h'.stored = h.stored ++ d → h'.receiveStatus = .complete →
      w = [] → 5 ≤ p.length → CallEnds h p w d r (true, h')
  | goesOn {h' : HttpClient} {s e d' : List UInt8} {r' : Option (List Chunk)} : d = e ++ d' →
      h'.stored = h.stored ++ e → h'.receiveStatus = h.receiveStatus → Keeps h' s w d' r' →
      (w = [] → p.length < 5) → chunksBehind r' <:+ chunksBehind r →
      (∀ c after, c :: after <:+ chunksBehind r →
        (chunkedBytes (c :: after)).length ≤ w.length → c :: after <:+ chunksBehind r') →
      CallEnds h p w d r (true, h')

/-- A call from the end of its loop on. -/
def behindLoop (b : List UInt8) :
    Except (Bool × HttpClient) (Nat × Nat × HttpClient) → Bool × HttpClient
  | .error r => r
  | .ok (iss, remaining, h) => (true, h.httpChunkKeep b iss remaining)

/-- A call from the end of its first part on. -/
def behindTail (b : List UInt8) :
    Except (Bool × HttpClient) (Nat × Nat × HttpClient) → Bool × HttpClient
  | .error r => r
  | .ok (iss, size, h) =>
    let (iss, remaining, h) := h.httpChunkRest b iss size
    behindLoop b (httpChunkLoop (b.length + 1) b iss remaining h)

theorem httpChunkAppend_eq (h : HttpClient) (b : List UInt8) {size : Nat} (hpos : size ≠ 0) :
    h.httpChunkAppend b size = behindTail b (h.httpChunkTail b size) := by
  unfold httpChunkAppend
  rw [if_neg hpos]
  rcases h.httpChunkTail b size with r | ⟨iss, left, h⟩
  · rfl
  · dsimp only [behindTail]
    rcases httpChunkLoop (b.length + 1) b _ _ _ with r | ⟨iss, left, h⟩ <;> rfl

/-- A call that is the same whatever stands behind the piece in its buffer. -/
def ReadsOnly (h : HttpClient) (p : List UInt8) : Prop :=
  ∀ junk, h.httpChunkAppend (p ++ 0 :: junk) p.length = h.httpChunkAppend p p.length

/-- **Behind the loop** a call does the same whatever stands behind the piece. -/
theorem LoopEnds.call {h h₁ h₂ : HttpClient} {p w e d : List UInt8} {iss : Nat}
    {r r₁ : Option (List Chunk)} {res : Except (Bool × HttpClient) (Nat × Nat × HttpClient)}
    (hends : LoopEnds h₂ p (p.drop iss) w d r₁ res) (hstores : Stores h₁ e h₂)
    (hst : h₁.stored = h.stored) (hstatus : h₁.receiveStatus = h.receiveStatus)
    (hcnt : h₁.gHttpChunkTail.cnt = 0) (hend : r₁ = none → w = [] → p.length < 5)
    (honward : Onward w.length r p.length r₁ (p.drop iss).length) :
    ∃ res', (∀ b, Buffered p b → behindLoop b res = res') ∧ CallEnds h p w (e ++ d) r res' := by
  cases hends with
  | complete hs hw hlen =>
      refine ⟨_, fun b _ => rfl, ?_⟩
      exact .complete ((hstores.trans hs).stored.trans (congrArg (· ++ _) hst)) rfl hw
        (hlen.trans (List.drop_sublist iss p).length_le)
  | @goesOn iss₂ h' e₂ d₂ r₂ hd hs hat hstop hr honward₂ =>
      have hs := hstores.trans hs
      have hcnt' : h'.gHttpChunkTail.cnt = 0 := by rw [hs.tail, hcnt]
      obtain ⟨s', h₃, hkeep, hk, hst₃, hstatus₃⟩ := httpChunkKeep_spec hat hcnt' hstop
      have honward := honward.trans honward₂
      refine ⟨(true, h₃), fun b hb => congrArg (Prod.mk true) (hkeep b hb), ?_⟩
      refine .goesOn (e := e ++ e₂) ?_ ?_ ?_ hk (fun hw => ?_) honward.suffix
        fun c after hc hlen => honward.comes c after hc (hlen.trans (Nat.le_add_left _ _))
      · rw [hd, List.append_assoc]
      · rw [hst₃, hs.stored, hst]
      · rw [hstatus₃, hs.status, hstatus]
      · subst hw
        rcases hr hk.atEnd.2 with hnone | hnone
        · exact hend hnone rfl
        · exact absurd rfl hnone

/-- **`http_chunkAppend`.**  The call reads only the piece exactly if the size lines in the piece
fit, and then it does what it should. -/
theorem httpChunkAppend_spec {h : HttpClient} {s p w d : List UInt8} {r : Option (List Chunk)}
    (hk : Keeps h s (p ++ w) d r) (hp : p ≠ []) (hsize : p.length ≤ httpRxBufDefaultSize) :
    (ReadsOnly h p ↔ PieceFits r p.length w.length) ∧
      (ReadsOnly h p → CallEnds h p w d r (h.httpChunkAppend p p.length)) := by
  have hpos : p.length ≠ 0 := fun h0 => hp (List.length_eq_zero_iff.mp h0)
  have htail := httpChunkTail_spec hk hp
  have hbuf : ∀ b, Buffered p b →
      h.httpChunkAppend b p.length = behindTail b (h.httpChunkTail p p.length) := by
    intro b hb
    rw [httpChunkAppend_eq h b hpos, hb.httpChunkTail]
  generalize h.httpChunkTail p p.length = res at htail hbuf
  cases htail with
  | waits hk' hst hstatus hw hfits =>
      refine ⟨iff_of_true (fun junk => ?_) hfits, fun _ => ?_⟩
      · rw [hbuf _ (.junk p junk), hbuf _ (.self p)]
        rfl
      · rw [hbuf _ (.self p)]
        exact .goesOn rfl (hst.trans (List.append_nil _).symm) hstatus hk' (fun h => absurd h hw)
          (List.suffix_refl _) fun _ _ hc _ => hc
  | @goesOn iss h₁ r₁ hat hst hstatus hcnt hend honward hfits =>
      obtain ⟨iss₂, h₂, e₂, d₂, hrest, hiss, rfl, hs₂, hat₂⟩ := httpChunkRest_spec hat
      have hless : (p.drop iss₂).length ≤ (p.drop iss).length := by
        rw [List.length_drop, List.length_drop]
        omega
      have hbehind := hat₂.mid.length_bytesBehind
      rw [List.length_append] at hbehind
      have hfits₂ := hfits.trans (pieceFits_iff_of_le hless hbehind)
      have hcall : ∀ b, Buffered p b → h.httpChunkAppend b p.length =
          behindLoop b (httpChunkLoop (b.length + 1) b iss₂ (p.drop iss₂).length h₂) := by
        intro b hb
        rw [hbuf b hb, behindTail, hrest b hb]
      have hfuel : ∀ b, Buffered p b → (p.drop iss₂).length < b.length + 1 := fun b hb =>
        Nat.lt_succ_of_le ((List.drop_sublist iss₂ p).length_le.trans hb.length_le)
      rcases httpChunkLoop_spec hat₂ hsize with
        ⟨res, hended⟩ | ⟨⟨iss₃, left, h₃, h₄, hself, hjunk, hne⟩, hwraps⟩
      · have hdone : ∀ b, Buffered p b → h.httpChunkAppend b p.length = behindLoop b res := by
          intro b hb
          rw [hcall b hb, hended.loop b _ hb (hfuel b hb)]
        obtain ⟨res', hres, hends⟩ :=
          hended.ends.call hs₂ hst hstatus hcnt hend (honward.trans (.refl _ _ hless))
        have hsame : ∀ b, Buffered p b → h.httpChunkAppend b p.length = res' := fun b hb =>
          (hdone b hb).trans (hres b hb)
        refine ⟨iff_of_true (fun junk => ?_) (hfits₂.mpr hended.fits), fun _ => ?_⟩
        · exact (hsame _ (.junk p junk)).trans (hsame p (.self p)).symm
        · rw [hsame p (.self p)]
          exact hends
      · have hread : ¬ ReadsOnly h p := by
          intro hread
          have hboth := hread [1]
          rw [hcall _ (.junk p [1]), hcall _ (.self p), hjunk _ (hfuel _ (.junk p [1])),
            hself _ (hfuel _ (.self p))] at hboth
          have htargets := congrArg (fun res => target res.2) hboth
          dsimp only [behindLoop] at htargets
          rw [target_httpChunkKeep, target_httpChunkKeep] at htargets
          exact hne htargets.symm
        exact ⟨iff_of_false hread fun hall => hwraps (hfits₂.mp hall), fun h => absurd h hread⟩

/-! ## The counter -/

/-- The counter of what has been stored has 32 bits. -/
def Counted (h : HttpClient) : Prop := h.stored.length < 4294967296

theorem length_stored (h : HttpClient) :
    h.stored.length = if h.stateType = .read then h.gReadLen else h.receiveSize := by
  unfold stored
  split <;> exact Mem.length_slice _ _ _

theorem Counted.store {h : HttpClient} (hc : h.Counted) (src : Mem) (n m k : Nat) :
    Counted { h.store src n with
      receiveSize := m % 4294967296
      httpCurChunkLen := k } := by
  unfold Counted at hc ⊢
  rw [length_stored] at hc ⊢
  have hmod : ∀ j : Nat, j % 4294967296 < 4294967296 := fun j => Nat.mod_lt j (by decide)
  unfold HttpClient.store
  by_cases hread : h.stateType = .read
  · rw [if_pos hread] at hc
    by_cases hact : h.actionType = .read
    · simp only [hread, hact, if_true]
      exact hmod _
    · simp only [hread, hact, if_true, if_false]
      exact hc
  · simp only [hread, if_false]
    exact hmod m

/-- The state that a part of a call leaves. -/
def stateOf : Except (Bool × HttpClient) (Nat × Nat × HttpClient) → HttpClient
  | .error r => r.2
  | .ok r => r.2.2

theorem httpChunkTail_counted {h : HttpClient} (hc : h.Counted) (input : List UInt8) (size : Nat) :
    (stateOf (h.httpChunkTail input size)).Counted := by
  unfold httpChunkTail
  dsimp only
  repeat' split
  all_goals exact hc

theorem httpChunkRest_counted {h : HttpClient} (hc : h.Counted) (input : List UInt8)
    (iss size : Nat) : (h.httpChunkRest input iss size).2.2.Counted := by
  unfold httpChunkRest
  split
  · exact hc
  · dsimp only
    simp only [store_receiveSize]
    repeat' split
    all_goals exact hc.store _ _ _ _

theorem httpChunkLoop_counted {h : HttpClient} (hc : h.Counted) (fuel : Nat) (input : List UInt8)
    (iss remaining : Nat) : (stateOf (httpChunkLoop fuel input iss remaining h)).Counted := by
  induction fuel generalizing iss remaining h with
  | zero => exact hc
  | succ fuel ih =>
      rw [httpChunkLoop]
      split
      · exact hc
      · split
        · exact hc
        · split
          · exact hc
          · split
            · exact hc
            · split
              · exact ih hc _ _
              · dsimp only
                split
                · exact hc
                · -- what is taken is of no matter, the counter is reduced in any case
                  generalize (ite (remaining < _) _ _ : Nat × Nat) = part
                  generalize (ite (part.1 < _) _ _ : Nat) = readSize
                  have hset : ∀ v, Counted { h with httpCurChunkLen := v, bodySize := v } :=
                    fun _ => hc
                  by_cases hpart : 0 < part.1
                  · simp only [if_pos hpart, store_receiveSize]
                    split
                    · exact ih ((hset _).store _ _ _ _) _ _
                    · exact ih ((hset _).store _ _ _ _) _ _
                  · simp only [if_neg hpart]
                    split
                    · exact ih (hset _) _ _
                    · exact ih (hset _) _ _

theorem httpChunkKeep_counted {h : HttpClient} (hc : h.Counted) (input : List UInt8)
    (iss remaining : Nat) : (h.httpChunkKeep input iss remaining).Counted := by
  unfold httpChunkKeep
  split <;> exact hc

theorem httpChunkAppend_counted {h : HttpClient} (hc : h.Counted) (input : List UInt8)
    (size : Nat) : (h.httpChunkAppend input size).2.Counted := by
  unfold httpChunkAppend
  split
  · exact hc
  · have htail := httpChunkTail_counted hc input size
    generalize h.httpChunkTail input size = res at htail
    cases res with
    | error r => exact htail
    | ok r =>
        have hrest := httpChunkRest_counted (show r.2.2.Counted from htail) input r.1 r.2.1
        dsimp only
        generalize r.2.2.httpChunkRest input r.1 r.2.1 = r₂ at hrest ⊢
        have hloop := httpChunkLoop_counted hrest (input.length + 1) input r₂.1 r₂.2.1
        generalize httpChunkLoop (input.length + 1) input r₂.1 r₂.2.1 r₂.2.2 = res at hloop ⊢
        cases res with
        | error r => exact hloop
        | ok r => exact httpChunkKeep_counted hloop input _ _

/-! ## All calls -/

/-- The calls on all pieces; whether each has returned `TRUE`. -/
def appendAll (h : HttpClient) : List (List UInt8) → Bool × HttpClient
  | [] => (true, h)
  | p :: ps =>
    let r := h.httpChunkAppend p p.length
    ((r.1 && (r.2.appendAll ps).1), (r.2.appendAll ps).2)

theorem appendAll_cons (h : HttpClient) (p : List UInt8) (ps : List (List UInt8)) :
    h.appendAll (p :: ps) =
      (((h.httpChunkAppend p p.length).1 && ((h.httpChunkAppend p p.length).2.appendAll ps).1),
        ((h.httpChunkAppend p p.length).2.appendAll ps).2) := rfl

theorem appendAll_counted {h : HttpClient} (hc : h.Counted) (ps : List (List UInt8)) :
    (h.appendAll ps).2.Counted := by
  induction ps generalizing h with
  | nil => exact hc
  | cons p ps ih => exact ih (httpChunkAppend_counted hc p p.length)

/-- An empty piece is refused. -/
theorem appendAll_nonempty {h : HttpClient} {ps : List (List UInt8)}
    (hok : (h.appendAll ps).1 = true) : ∀ p ∈ ps, p ≠ [] := by
  induction ps generalizing h with
  | nil => exact fun p hp => absurd hp List.not_mem_nil
  | cons p ps ih =>
      obtain ⟨hfirst, hrest⟩ := (Bool.and_eq_true _ _).mp hok
      intro q hq
      rcases List.mem_cons.mp hq with rfl | hq
      · rintro rfl
        exact absurd hfirst (by simp [httpChunkAppend])
      · exact ih hrest q hq

/-- No call looks behind its piece. -/
def AllReadOnly (h : HttpClient) (ps : List (List UInt8)) : Prop :=
  ∀ qs q rest, ps = qs ++ q :: rest → ReadsOnly (h.appendAll qs).2 q

theorem allReadOnly_nil (h : HttpClient) : h.AllReadOnly [] :=
  fun _ _ _ hps => absurd hps.symm (List.append_ne_nil_of_right_ne_nil _ (List.cons_ne_nil _ _))

theorem allReadOnly_cons {h : HttpClient} {p : List UInt8} {ps : List (List UInt8)} :
    h.AllReadOnly (p :: ps) ↔
      h.ReadsOnly p ∧ (h.httpChunkAppend p p.length).2.AllReadOnly ps := by
  constructor
  · intro hall
    exact ⟨hall [] p ps rfl, fun qs q rest hps => hall (p :: qs) q rest (congrArg (p :: ·) hps)⟩
  · rintro ⟨hp, hall⟩ qs q rest hps
    cases qs with
    | nil =>
        obtain ⟨rfl, rfl⟩ := List.cons.inj hps
        exact hp
    | cons p' qs =>
        obtain ⟨rfl, htail⟩ := List.cons.inj hps
        exact hall qs q rest htail

theorem eq_nil_of_flatten {ps : List (List UInt8)} (hps : ps.flatten = [])
    (hne : ∀ p ∈ ps, p ≠ []) : ps = [] := by
  cases ps with
  | nil => rfl
  | cons q ps =>
      exact absurd (List.append_eq_nil_iff.mp hps).1 (hne q List.mem_cons_self)

/-- **No call looks behind its piece** exactly if the size lines that are whole in a piece fit. -/
theorem allReadOnly_iff {h : HttpClient} {s d : List UInt8} {r : Option (List Chunk)}
    {ps : List (List UInt8)} (hk : Keeps h s ps.flatten d r) (hne : ∀ p ∈ ps, p ≠ [])
    (hshort : ∀ p ∈ ps, p.length ≤ httpRxBufDefaultSize) :
    h.AllReadOnly ps ↔ LinesFit (chunksBehind r) ps := by
  induction ps generalizing h s d r with
  | nil => exact iff_of_true (allReadOnly_nil h) (linesFit_nil _)
  | cons p ps ih =>
      have hne' : ∀ q ∈ ps, q ≠ [] := fun q hq => hne q (List.mem_cons_of_mem p hq)
      have hshort' : ∀ q ∈ ps, q.length ≤ httpRxBufDefaultSize := fun q hq =>
        hshort q (List.mem_cons_of_mem p hq)
      obtain ⟨hreads, hcall⟩ :=
        httpChunkAppend_spec hk (hne p List.mem_cons_self) (hshort p List.mem_cons_self)
      rw [allReadOnly_cons, linesFit_cons, ← hreads]
      refine and_congr_right fun hread => ?_
      have hends := hcall hread
      generalize h.httpChunkAppend p p.length = res at hends
      cases hends with
      | complete hstored hst hw hlen =>
          obtain rfl := eq_nil_of_flatten hw hne'
          exact iff_of_true (allReadOnly_nil _) (linesFit_nil _)
      | goesOn hd hstored hst hk' hlast hsuffix hcomes =>
          exact (ih hk' hne' hshort').trans (linesFit_iff_of_comes hsuffix hcomes)

/-- **The calls on the pieces of what is still to come.** -/
theorem appendAll_spec {h : HttpClient} {s d : List UInt8} {r : Option (List Chunk)}
    {ps : List (List UInt8)} (hk : Keeps h s ps.flatten d r) (hst : h.receiveStatus ≠ .complete)
    (hne : ∀ p ∈ ps, p ≠ []) (hshort : ∀ p ∈ ps, p.length ≤ httpRxBufDefaultSize)
    (hreads : h.AllReadOnly ps) :
    (h.appendAll ps).1 = true ∧ (h.appendAll ps).2.stored = h.stored ++ d ∧
      ∀ k, (h.appendAll (ps.take k)).2.receiveStatus = .complete ↔
        ps.length ≤ k ∧ 5 ≤ (ps.getLast?.getD []).length := by
  induction ps generalizing h s d r with
  | nil =>
      obtain ⟨rfl, -⟩ := hk.atEnd
      refine ⟨rfl, (List.append_nil _).symm, fun k => ?_⟩
      rw [List.take_nil]
      exact iff_of_false hst fun h => absurd h.2 (by decide)
  | cons p ps ih =>
      obtain ⟨hread, hreads'⟩ := allReadOnly_cons.mp hreads
      have hcall :=
        (httpChunkAppend_spec hk (hne p List.mem_cons_self) (hshort p List.mem_cons_self)).2 hread
      have hne' : ∀ q ∈ ps, q ≠ [] := fun q hq => hne q (List.mem_cons_of_mem p hq)
      have hshort' : ∀ q ∈ ps, q.length ≤ httpRxBufDefaultSize := fun q hq =>
        hshort q (List.mem_cons_of_mem p hq)
      rw [appendAll_cons]
      generalize hres : h.httpChunkAppend p p.length = res at hcall hreads'
      cases hcall with
      | @complete h' hstored hst' hw hlen =>
          obtain rfl := eq_nil_of_flatten hw hne'
          refine ⟨rfl, hstored, fun k => ?_⟩
          cases k with
          | zero => exact iff_of_false hst fun h => absurd h.1 (Nat.not_succ_le_zero _)
          | succ k =>
              rw [List.take_succ_cons, List.take_nil, appendAll_cons, hres]
              exact iff_of_true hst' ⟨Nat.le_add_left 1 k, hlen⟩
      | @goesOn h' s' e d' r' hd hstored' hst' hk' hlast hsuffix hcomes =>
          obtain ⟨hok, hstored, hcomplete⟩ := ih hk' (hst'.symm ▸ hst) hne' hshort' hreads'
          refine ⟨hok, ?_, fun k => ?_⟩
          · rw [hstored, hstored', hd, List.append_assoc]
          · cases k with
            | zero => exact iff_of_false hst fun h => absurd h.1 (Nat.not_succ_le_zero _)
            | succ k =>
                rw [List.take_succ_cons, appendAll_cons, hres]
                refine (hcomplete k).trans ?_
                cases ps with
                | nil =>
                    refine iff_of_false (fun h => absurd h.2 (by decide)) fun h => ?_
                    exact absurd (hlast rfl) (Nat.not_lt.mpr h.2)
                | cons q ps =>
                    rw [List.getLast?_cons_cons, List.length_cons]
                    exact and_congr_left fun _ => (Nat.succ_le_succ_iff).symm

/-- The client before the body: nothing is kept, and there is somewhere to store it. -/
structure AwaitsBody (h : HttpClient) : Prop where
  status : h.receiveStatus = .chunk
  tail : h.gHttpChunkTail.cnt = 0
  len : h.httpCurChunkLen = 0
  rspReach : h.rspReach = false
  opened : h.Opened
  counted : h.Counted

/-- The pieces of a body, each no longer than the receive buffer. -/
structure CutInto (cs : List Chunk) (ps : List (List UInt8)) : Prop where
  bytes : ps.flatten = chunkedBytes cs
  short : ∀ p ∈ ps, p.length ≤ httpRxBufDefaultSize

/-- Each call returns `TRUE`, the data are stored, and the status is `HTTP_RECEIVE_COMPLETE` as
soon as all bytes have been given, and no sooner; and none of this is left to what stands behind a
piece in its buffer. -/
structure DecodesBody (h : HttpClient) (cs : List Chunk) (ps : List (List UInt8)) : Prop where
  reads : h.AllReadOnly ps
  returns : (h.appendAll ps).1 = true
  stores : (h.appendAll ps).2.stored = h.stored ++ chunkedData cs
  completes : ∀ k, (h.appendAll (ps.take k)).2.receiveStatus = .complete ↔
    (ps.drop k).flatten = []

end HttpClient

/-- **Chunked bodies.**  In whatever pieces a body is given, it is decoded, and complete with its
last byte, exactly if there is room for the data, no piece is empty, the chunks fit whose size
lines are whole in a piece, and the last piece has the whole of `0 CR LF CR LF`. -/
theorem decodesBody_iff {h : HttpClient} {cs : List Chunk} {ps : List (List UInt8)}
    (hstart : h.AwaitsBody) (hcut : HttpClient.CutInto cs ps) :
    h.DecodesBody cs ps ↔
      h.stored.length + (chunkedData cs).length < 4294967296 ∧ (∀ p ∈ ps, p ≠ []) ∧
        LinesFit cs ps ∧ ∃ q ∈ ps.getLast?, lastChunk <:+ q := by
  have hkeeps : h.stored.length + (chunkedData cs).length < 4294967296 →
      h.Keeps [] ps.flatten (chunkedData cs) (some cs) := by
    intro hroom
    refine ⟨hstart.opened, hstart.rspReach, hstart.tail, rfl, fun h => absurd rfl h, ?_, hroom⟩
    rw [hcut.bytes, hstart.len]
    exact .line (some cs)
  have hst : h.receiveStatus ≠ .complete := by
    rw [hstart.status]
    decide
  have hps : ps ≠ [] := by
    rintro rfl
    exact chunkedBytes_ne_nil cs hcut.bytes.symm
  obtain ⟨qs, q, rfl⟩ : ∃ qs q, ps = qs ++ [q] :=
    ⟨ps.dropLast, ps.getLast hps, (List.dropLast_concat_getLast hps).symm⟩
  have hlast : (qs ++ [q]).getLast? = some q := List.getLast?_concat
  have hsuffix : (∃ x ∈ (qs ++ [q]).getLast?, lastChunk <:+ x) ↔ 5 ≤ q.length := by
    rw [hlast]
    constructor
    · rintro ⟨x, hx, hsub⟩
      obtain rfl := Option.some.inj hx
      exact hsub.length_le
    · intro hlen
      have hend : qs.flatten ++ q = chunkedBytes cs := by
        rw [← hcut.bytes, List.flatten_append, List.flatten_singleton]
      exact ⟨q, rfl, lastChunk_suffix hend hlen⟩
  rw [hsuffix]
  constructor
  · intro hdec
    have hne := HttpClient.appendAll_nonempty hdec.returns
    have hroom : h.stored.length + (chunkedData cs).length < 4294967296 := by
      have hcount := HttpClient.appendAll_counted hstart.counted (qs ++ [q])
      unfold HttpClient.Counted at hcount
      rwa [hdec.stores, List.length_append] at hcount
    have hk := hkeeps hroom
    obtain ⟨-, -, hcomplete⟩ := HttpClient.appendAll_spec hk hst hne hcut.short hdec.reads
    have hend := (hdec.completes (qs ++ [q]).length).mpr (by rw [List.drop_length]; rfl)
    have hfive := ((hcomplete _).mp hend).2
    rw [hlast] at hfive
    exact ⟨hroom, hne, (HttpClient.allReadOnly_iff hk hne hcut.short).mp hdec.reads, hfive⟩
  · rintro ⟨hroom, hne, hfits, hfive⟩
    have hk := hkeeps hroom
    have hreads := (HttpClient.allReadOnly_iff hk hne hcut.short).mpr hfits
    obtain ⟨hok, hstored, hcomplete⟩ := HttpClient.appendAll_spec hk hst hne hcut.short hreads
    refine ⟨hreads, hok, hstored, fun k => (hcomplete k).trans ?_⟩
    rw [hlast]
    constructor
    · rintro ⟨hlen, -⟩
      rw [List.drop_of_length_le hlen]
      rfl
    · intro hdrop
      refine ⟨?_, hfive⟩
      by_contra hlen
      obtain ⟨p, ps, hp⟩ := List.exists_cons_of_ne_nil
        (show (qs ++ [q]).drop k ≠ [] by rw [ne_eq, List.drop_eq_nil_iff]; exact hlen)
      rw [hp] at hdrop
      refine hne p ?_ (List.append_eq_nil_iff.mp hdrop).1
      exact List.mem_of_mem_drop (hp ▸ List.mem_cons_self)

/-- The client behind the header of a chunked response. -/
def chunkedClient : HttpClient :=
  { idleClient.httpGetSent 5 with receiveStatus := .chunk, pBody := some fun _ => 0 }

theorem chunkedClient_awaitsBody : chunkedClient.AwaitsBody :=
  ⟨rfl, rfl, rfl, rfl, rfl, show 0 < 4294967296 by decide⟩

/-- `abc`, as a chunk. -/
def abcChunk : Chunk where
  line := [51]
  data := [97, 98, 99]
  isDigit := by
    intro b hb
    obtain rfl := List.mem_singleton.mp hb
    decide
  short := by decide
  size := rfl
  notLast := by decide

/-- Cut in the size line, in the data, and between CR and LF. -/
theorem abcBody_decoded : chunkedClient.DecodesBody [abcChunk]
    [[51], [13, 10, 97, 98], [99, 13], [10, 48, 13, 10, 13, 10]] := by
  refine (decodesBody_iff chunkedClient_awaitsBody ⟨rfl, by decide⟩).mpr
    ⟨by decide, by decide, ?_, _, rfl, [10], rfl⟩
  intro c after hc _ _ _ _
  obtain rfl := List.mem_singleton.mp (hc.subset List.mem_cons_self)
  show 1 + 3 + 4 < 4294967296
  decide

/-- Cut in the last chunk: the body is never complete. -/
theorem cutLastChunk_not_decoded :
    chunkedClient.AwaitsBody ∧
      HttpClient.CutInto [abcChunk]
        [[51, 13, 10, 97, 98, 99, 13, 10, 48], [13, 10, 13, 10]] ∧
      ¬ chunkedClient.DecodesBody [abcChunk]
        [[51, 13, 10, 97, 98, 99, 13, 10, 48], [13, 10, 13, 10]] := by
  refine ⟨chunkedClient_awaitsBody, ⟨rfl, by decide⟩, fun h => ?_⟩
  have hcomplete := (h.completes 2).mpr rfl
  exact absurd hcomplete (by decide +kernel)

end IntercomSalve
