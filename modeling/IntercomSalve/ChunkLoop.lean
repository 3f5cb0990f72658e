/-
# `ChunkLoop` — the chunks in one piece of a body

`http_chunkAppend` first stores the rest of the chunk that the last call left off in
(`httpChunkRest`), and then takes one size line after the other (`httpChunkLoop`).  Both store as
much of a chunk as there is and skip the line break behind it, if that is there (`Stores.chunk`).

The loop has two ways out: the last chunk, if exactly that is left of the piece, and a place where
no line break is left to be seen (`LoopEnds`).

A piece stands in a buffer with a zero byte behind it, and then anything (`Buffered`).  Where the
size lines in the piece fit, the loop does not look at what that is.  A size line whose sum wraps
makes it copy the chunk from behind the piece (`LooksBehind`).
-/
import IntercomSalve.ChunkedBody

namespace IntercomSalve

open CString

/-! ## Storing -/

namespace HttpClient

/-- There is somewhere to store the body. -/
def Opened (h : HttpClient) : Prop :=
  if h.stateType = .read then h.actionType = .read else h.pBody.isSome

/-- What has been stored: what the reader of the body has been given so far, or what is in
`pBody`. -/
def stored (h : HttpClient) : List UInt8 :=
  if h.stateType = .read then h.pReadData.slice 0 h.gReadLen
  else (h.pBody.getD fun _ => 0).slice 0 h.receiveSize

/-- From `h` to `h'` the bytes `e` are stored, and the status and the tail are left alone. -/
structure Stores (h : HttpClient) (e : List UInt8) (h' : HttpClient) : Prop where
  stored : h'.stored = h.stored ++ e
  opened : h'.Opened
  rspReach : h'.rspReach = h.rspReach
  status : h'.receiveStatus = h.receiveStatus
  tail : h'.gHttpChunkTail = h.gHttpChunkTail

theorem Stores.refl {h : HttpClient} (ho : h.Opened) : Stores h [] h :=
  ⟨(List.append_nil _).symm, ho, rfl, rfl, rfl⟩

theorem Stores.trans {h h₁ h₂ : HttpClient} {e e' : List UInt8} (h1 : Stores h e h₁)
    (h2 : Stores h₁ e' h₂) : Stores h (e ++ e') h₂ :=
  ⟨by rw [h2.stored, h1.stored, List.append_assoc], h2.opened, h2.rspReach.trans h1.rspReach,
    h2.status.trans h1.status, h2.tail.trans h1.tail⟩

/-- How long the chunk is, is no matter of storing. -/
theorem Stores.setLen {h : HttpClient} (ho : h.Opened) (k n : Nat) :
    Stores h [] { h with httpCurChunkLen := k, bodySize := n } :=
  ⟨(List.append_nil _).symm, ho, rfl, rfl, rfl⟩

@[simp] theorem store_httpCurChunkLen (h : HttpClient) (src : Mem) (n : Nat) :
    (h.store src n).httpCurChunkLen = h.httpCurChunkLen := by
  unfold store
  split
  · split <;> rfl
  · rfl

/-- **Storing** some bytes, while the counter has room for them. -/
theorem Stores.store {h : HttpClient} (ho : h.Opened) (src : Mem) (n k : Nat)
    (hroom : h.stored.length + n < 4294967296) :
    Stores h (src.slice 0 n)
      { h.store src n with
        receiveSize := (h.receiveSize + n) % 4294967296
        httpCurChunkLen := k } := by
  by_cases hread : h.stateType = .read
  · have hact : h.actionType = .read := by simpa [Opened, hread] using ho
    have hlen : h.stored.length = h.gReadLen := by simp [HttpClient.stored, hread]
    have hmod : (h.gReadLen + n) % 4294967296 = h.gReadLen + n :=
      Nat.mod_eq_of_lt (hlen ▸ hroom)
    rw [store_pReadData hread hact, hmod]
    refine ⟨?_, ?_, rfl, rfl, rfl⟩
    · simp only [HttpClient.stored, if_pos hread]
      exact Mem.slice_memcpy_end _ _ _ _
    · simpa [Opened, hread] using hact
  · obtain ⟨m, hm⟩ : ∃ m, h.pBody = some m := by
      simpa [Opened, hread, Option.isSome_iff_exists] using ho
    have hlen : h.stored.length = h.receiveSize := by simp [HttpClient.stored, hread]
    have hmod : (h.receiveSize + n) % 4294967296 = h.receiveSize + n :=
      Nat.mod_eq_of_lt (hlen ▸ hroom)
    rw [store_pBody hread hm, hmod]
    refine ⟨?_, ?_, rfl, rfl, rfl⟩
    · simp only [HttpClient.stored, if_neg hread, hm, Option.getD_some]
      exact Mem.slice_memcpy_end _ _ _ _
    · simp [Opened, hread]

/-- What is copied from an offset of the input on. -/
theorem slice_input (input : List UInt8) (iss : Nat) {n : Nat} (hn : n ≤ (input.drop iss).length) :
    ((Mem.ofList input).ptr iss).slice 0 n = (input.drop iss).take n := by
  apply List.ext_getElem
  · rw [Mem.length_slice, List.length_take, Nat.min_eq_left hn]
  · intro k hk _
    rw [Mem.length_slice] at hk
    rw [List.length_drop] at hn
    simp [Mem.slice, Mem.ofList, List.getElem?_eq_getElem (show iss + k < input.length by omega)]

/-- The next bytes of the input, `k` of them or all there are, are stored. -/
theorem Stores.input {h : HttpClient} (ho : h.Opened) (input : List UInt8) (iss : Nat)
    {t : Nat} (k : Nat) (ht : t ≤ (input.drop iss).length)
    (hroom : h.stored.length + t < 4294967296) :
    Stores h ((input.drop iss).take t)
      { h.store ((Mem.ofList input).ptr iss) t with
        receiveSize := (h.receiveSize + t) % 4294967296
        httpCurChunkLen := k } := by
  rw [← slice_input input iss ht]
  exact .store ho _ t k hroom

theorem length_drop_add (input : List UInt8) (iss t : Nat) :
    (input.drop (iss + t)).length = (input.drop iss).length - t := by
  rw [← List.drop_drop, List.length_drop]

/-! ## Buffers -/

/-- A buffer with the piece `p`: a zero byte stands behind it, and then anything. -/
def Buffered (p b : List UInt8) : Prop := b = p ∨ ∃ junk, b = p ++ 0 :: junk

/-- What is stored has been copied from the bytes that are counted. -/
theorem store_congr (h : HttpClient) {src src' : Mem} {n : Nat}
    (hsrc : ∀ k, k < n → src k = src' k) : h.store src n = h.store src' n := by
  unfold store
  simp only [Mem.memcpy_congr _ _ hsrc]

namespace Buffered

variable {p b : List UInt8} {iss n : Nat}

theorem self (p : List UInt8) : Buffered p p := Or.inl rfl

theorem junk (p junk : List UInt8) : Buffered p (p ++ 0 :: junk) := Or.inr ⟨junk, rfl⟩

theorem length_le (hb : Buffered p b) : p.length ≤ b.length := by
  obtain rfl | ⟨junk, rfl⟩ := hb
  · exact Nat.le_refl _
  · exact (List.prefix_append p _).length_le

theorem ofList (hb : Buffered p b) {k : Nat} (hk : k < p.length) :
    Mem.ofList b k = Mem.ofList p k := by
  obtain rfl | ⟨junk, rfl⟩ := hb
  · rfl
  · unfold Mem.ofList
    rw [List.getD_append _ _ _ _ hk]

theorem strstr (hb : Buffered p b) (hiss : iss ≤ p.length) (pat : List UInt8) :
    strstr (b.drop iss) pat = strstr (p.drop iss) pat := by
  obtain rfl | ⟨junk, rfl⟩ := hb
  · rfl
  · rw [List.drop_append_of_le_length hiss, CString.strstr, cString_append_nul]
    rfl

theorem take (hb : Buffered p b) (hn : n ≤ (p.drop iss).length) :
    (b.drop iss).take n = (p.drop iss).take n := by
  obtain rfl | ⟨junk, rfl⟩ := hb
  · rfl
  · by_cases hiss : iss ≤ p.length
    · rw [List.drop_append_of_le_length hiss, List.take_append_of_le_length hn]
    · rw [List.length_drop] at hn
      obtain rfl : n = 0 := by omega
      rw [List.take_zero, List.take_zero]

theorem store (hb : Buffered p b) (h : HttpClient) (hn : iss + n ≤ p.length) :
    h.store ((Mem.ofList b).ptr iss) n = h.store ((Mem.ofList p).ptr iss) n :=
  store_congr h fun k hk => hb.ofList (show iss + k < p.length by omega)

end Buffered

/-! ## Chunks -/

/-- Where the input goes on behind the line break of a chunk, with `k` bytes of it to come. -/
def pastCrlf (k : Nat) (input : List UInt8) (iss : Nat) : Nat :=
  if k = 0 ∧ 2 ≤ (input.drop iss).length then iss + 2 else iss

theorem drop_pastCrlf (k : Nat) (input : List UInt8) (iss : Nat) :
    input.drop (pastCrlf k input iss) = skipCrlf k (input.drop iss) := by
  unfold pastCrlf skipCrlf
  split
  · rw [List.drop_drop]
  · rfl

theorem pastCrlf_le {k : Nat} {input : List UInt8} {iss : Nat} (h : iss ≤ input.length) :
    pastCrlf k input iss ≤ input.length := by
  unfold pastCrlf
  split
  · next hlen =>
      have hlen' := hlen.2
      rw [List.length_drop] at hlen'
      omega
  · exact h

/-- **As much of a chunk as there is** is stored. -/
theorem Stores.chunk {h : HttpClient} {input w bs : List UInt8} {iss t : Nat}
    {r : Option (List Chunk)} (ho : h.Opened) (hr : r = none → bs = [])
    (hbytes : input.drop iss ++ w = bs ++ (crlf ++ bytesBehind r))
    (hroom : h.stored.length + bs.length < 4294967296)
    (ht : t = min bs.length (input.drop iss).length) :
    Stores h (bs.take t)
        { h.store ((Mem.ofList input).ptr iss) t with
          receiveSize := (h.receiveSize + t) % 4294967296
          httpCurChunkLen := bs.length - t } ∧
      Mid (bs.length - t) (input.drop (pastCrlf (bs.length - t) input (iss + t)) ++ w)
        (bs.drop t ++ dataBehind r) r ∧
      (bs.length - t ≠ 0 → input.drop (pastCrlf (bs.length - t) input (iss + t)) = []) := by
  obtain ⟨htake, hall, hmid⟩ := Mid.take hr hbytes ht
  rw [List.drop_drop] at hall hmid
  refine ⟨?_, ?_, fun hne => ?_⟩
  · rw [← htake]
    exact .input ho input iss _ (by omega) (by omega)
  · rw [drop_pastCrlf]
    exact hmid
  · rw [drop_pastCrlf, skipCrlf, if_neg fun h => hne h.1]
    exact hall hne

/-! ## The rest of a chunk -/

/-- At the offset `iss` of a piece, with `w` behind the piece: what is still to come has the data
`d`, and there is room for them. -/
structure PieceAt (input w : List UInt8) (iss : Nat) (h : HttpClient) (d : List UInt8)
    (r : Option (List Chunk)) : Prop where
  opened : h.Opened
  rspReach : h.rspReach = false
  le : iss ≤ input.length
  mid : Mid h.httpCurChunkLen (input.drop iss ++ w) d r
  room : h.stored.length + d.length < 4294967296

/-- The same where the loop looks at it: a chunk that goes on has nothing more in the piece. -/
structure LoopAt (input w : List UInt8) (iss : Nat) (h : HttpClient) (d : List UInt8)
    (r : Option (List Chunk)) : Prop extends PieceAt input w iss h d r where
  all : h.httpCurChunkLen ≠ 0 → input.drop iss = []

/-- The room for what is stored and what is not. -/
theorem Stores.room {h h' : HttpClient} {e d : List UInt8} (hs : Stores h e h')
    (hroom : h.stored.length + (e ++ d).length < 4294967296) :
    h'.stored.length + d.length < 4294967296 := by
  rw [hs.stored, List.length_append]
  rw [List.length_append] at hroom
  omega

/-- In a chunk the rest of it comes first. -/
theorem PieceAt.inChunk {input w d : List UInt8} {iss : Nat} {h : HttpClient}
    {r : Option (List Chunk)} (hat : PieceAt input w iss h d r) (hk : h.httpCurChunkLen ≠ 0) :
    ∃ bs cs, h.httpCurChunkLen = bs.length ∧
      input.drop iss ++ w = bs ++ (crlf ++ bytesBehind (some cs)) ∧
      d = bs ++ dataBehind (some cs) ∧ r = some cs := by
  have hmid := hat.mid
  generalize input.drop iss ++ w = v at hmid
  generalize h.httpCurChunkLen = l at hmid hk
  cases hmid with
  | line r => exact absurd rfl hk
  | lineBreak r => exact absurd rfl hk
  | @data bs cs hne => exact ⟨bs, cs, rfl, rfl, rfl, rfl⟩

/-- **The rest of a chunk.** -/
theorem httpChunkRest_spec {h : HttpClient} {input w d : List UInt8} {iss : Nat}
    {r : Option (List Chunk)} (hat : PieceAt input w iss h d r) :
    ∃ iss' h' e d', (∀ b, Buffered input b →
        h.httpChunkRest b iss (input.drop iss).length = (iss', (input.drop iss').length, h')) ∧
      iss ≤ iss' ∧ d = e ++ d' ∧ Stores h e h' ∧ LoopAt input w iss' h' d' r := by
  by_cases hk : h.httpCurChunkLen = 0
  · exact ⟨iss, h, [], d, fun b _ => if_pos hk, Nat.le_refl _, rfl, .refl hat.opened, hat,
      fun hne => absurd hk hne⟩
  · obtain ⟨bs, cs, hlen, hbytes, rfl, rfl⟩ := hat.inChunk hk
    have hr : some cs = none → bs = [] := fun h => absurd h (Option.some_ne_none cs)
    have hroom := hat.room
    rw [List.length_append] at hroom
    obtain ⟨hstores, hmid, hall⟩ := Stores.chunk hat.opened hr hbytes (by omega) rfl
    generalize ht : min bs.length (input.drop iss).length = t at hstores hmid hall
    have hrx : (if h.httpCurChunkLen ≤ (input.drop iss).length then h.httpCurChunkLen
        else (input.drop iss).length) = t := by
      rw [hlen]
      split <;> omega
    have hleft := length_drop_add input iss t
    have hsplit : bs ++ dataBehind (some cs) =
        bs.take t ++ (bs.drop t ++ dataBehind (some cs)) := by
      rw [← List.append_assoc, List.take_append_drop]
    have hfit : iss + t ≤ input.length := by
      have hle := hat.le
      rw [List.length_drop] at ht
      omega
    have hpast : iss + t ≤ pastCrlf (bs.length - t) input (iss + t) := by
      unfold pastCrlf
      split <;> omega
    refine ⟨pastCrlf (bs.length - t) input (iss + t), _, _, _, fun b hb => ?_,
      (Nat.le_add_right iss t).trans hpast, hsplit, hstores,
      ⟨hstores.opened, hstores.rspReach.trans hat.rspReach, pastCrlf_le hfit, hmid,
        hstores.room (hsplit ▸ hat.room)⟩, hall⟩
    · unfold httpChunkRest pastCrlf
      rw [if_neg hk, hrx]
      dsimp only
      rw [hb.store h hfit]
      simp only [store_receiveSize, store_httpCurChunkLen, hlen, ← hleft]
      split
      · rw [length_drop_add input (iss + t) 2]
      · rfl

/-! ## A pass of the loop -/

/-- What is taken of a chunk in the loop, and what is left then. -/
theorem loop_lengths (n v l : Nat) :
    (if n + 2 + l < n + v + 4 then
        if sub32 (n + v + 4) 2 ≤ n + 2 + l then
          (v, sub32 (sub32 (sub32 (n + 2 + l) n) 2) v)
        else (sub32 (sub32 (n + 2 + l) n) 2, 0)
      else (v, sub32 (sub32 (sub32 (n + 2 + l) v) n) 2)) = (min v l, l - min v l) := by
  have h2 : sub32 (n + v + 4) 2 = n + v + 2 := sub32_of_le (by omega)
  have hl : sub32 (sub32 (n + 2 + l) n) 2 = l := by
    rw [sub32_of_le (show n ≤ n + 2 + l by omega),
      sub32_of_le (show 2 ≤ n + 2 + l - n by omega)]
    omega
  rw [h2, hl]
  split
  · split
    · rw [sub32_of_le (show v ≤ l by omega), Nat.min_eq_left (by omega)]
    · rw [Nat.min_eq_right (by omega), Nat.sub_self]
  · have hv : sub32 (sub32 (sub32 (n + 2 + l) v) n) 2 = l - v := by
      rw [sub32_of_le (show v ≤ n + 2 + l by omega),
        sub32_of_le (show n ≤ n + 2 + l - v by omega),
        sub32_of_le (show 2 ≤ n + 2 + l - v - n by omega)]
      omega
    rw [hv, Nat.min_eq_left (by omega)]

/-- What the loop does with a chunk of `v` bytes of which `t` are in the input, at `iss`. -/
def loopTake (h : HttpClient) (input : List UInt8) (iss v t : Nat) : HttpClient :=
  let h := { h with httpCurChunkLen := v, bodySize := v }
  if 0 < t then
    { h.store ((Mem.ofList input).ptr iss) t with
      receiveSize := (h.receiveSize + t) % 4294967296
      httpCurChunkLen := v - t }
  else h

theorem loopTake_len (h : HttpClient) (input : List UInt8) (iss v t : Nat) :
    (h.loopTake input iss v t).httpCurChunkLen = v - t := by
  unfold loopTake
  split
  · rfl
  · next hzero => rw [Nat.eq_zero_of_not_pos hzero, Nat.sub_zero]

theorem Buffered.loopTake {p b : List UInt8} (hb : Buffered p b) (h : HttpClient) {iss v t : Nat}
    (ht : iss + t ≤ p.length) : h.loopTake b iss v t = h.loopTake p iss v t := by
  unfold HttpClient.loopTake
  dsimp only
  rw [hb.store _ ht]

/-- The memory that the body is stored in. -/
def target (h : HttpClient) : Mem :=
  if h.stateType = .read then h.pReadData else h.pBody.getD fun _ => 0

/-- The bytes go behind what is stored. -/
theorem target_store {h : HttpClient} (ho : h.Opened) (src : Mem) (n : Nat) :
    (h.store src n).target = h.target.memcpy h.stored.length src n := by
  by_cases hread : h.stateType = .read
  · have hact : h.actionType = .read := by simpa [Opened, hread] using ho
    rw [store_pReadData hread hact]
    simp [target, HttpClient.stored, hread]
  · obtain ⟨m, hm⟩ : ∃ m, h.pBody = some m := by
      simpa [Opened, hread, Option.isSome_iff_exists] using ho
    rw [store_pBody hread hm]
    simp [target, HttpClient.stored, hread, hm]

theorem target_loopTake {h : HttpClient} (ho : h.Opened) (input : List UInt8) (iss v : Nat)
    {t : Nat} (ht : 0 < t) :
    (h.loopTake input iss v t).target =
      h.target.memcpy h.stored.length ((Mem.ofList input).ptr iss) t := by
  have hstore := target_store (h := { h with httpCurChunkLen := v, bodySize := v }) ho
    ((Mem.ofList input).ptr iss) t
  unfold loopTake
  rw [if_pos ht]
  exact hstore

/-- A pass of the loop over a size line of `n` digits and a chunk of `v` bytes, with `l` bytes
behind the line. -/
theorem httpChunkLoop_pass {h : HttpClient} {input : List UInt8} {iss n v l : Nat} (fuel : Nat)
    (hk : h.httpCurChunkLen = 0) (hreach : h.rspReach = false)
    (hstr : strstr (input.drop iss) crlf = some n) (hpos : n ≠ 0) (hshort : n ≤ 8)
    (hvalue : strtoul 16 ((input.drop iss).take n) = v) (hfit : n + v + 4 < 4294967296) :
    httpChunkLoop (fuel + 1) input iss (n + 2 + l) h =
      if v = 0 ∧ l = 2 then
        .error (true, { h with httpCurChunkLen := v, bodySize := v, receiveStatus := .complete })
      else
        let t := min v l
        let h := h.loopTake input (iss + n + 2) v t
        if v - t = 0 ∧ 2 ≤ l - t then
          httpChunkLoop fuel input (iss + n + 2 + t + 2) (l - t - 2) h
        else httpChunkLoop fuel input (iss + n + 2 + t) (l - t) h := by
  have hoffset : (n + v + 4) % 4294967296 = n + v + 4 := Nat.mod_eq_of_lt hfit
  have hlast : (v = 0 ∧ n + 2 + l = n + v + 4) = (v = 0 ∧ l = 2) := by
    refine propext (and_congr_right fun hv => ?_)
    omega
  have hmin : (if min v l < v then min v l else v) = min v l := by
    split <;> omega
  rw [httpChunkLoop, if_neg (not_not.mpr hk)]
  simp only [hstr, hvalue, hoffset, hlast, loop_lengths, hmin]
  rw [if_neg (show ¬ h.rspReach = true by rw [hreach]; decide),
    if_neg (show ¬ httpHexStrMaxSize < n from Nat.not_lt.mpr hshort), if_neg hpos]
  by_cases hend : v = 0 ∧ l = 2
  · rw [if_pos hend, if_pos hend]
  · rw [if_neg hend, if_neg hend]
    unfold loopTake
    by_cases hpart : 0 < min v l
    · simp only [if_pos hpart, store_receiveSize, store_httpCurChunkLen]
    · have hzero : min v l = 0 := Nat.eq_zero_of_not_pos hpart
      simp only [hzero, Nat.lt_irrefl, if_false, Nat.add_zero, Nat.sub_zero]

/-- A size line whose sum wraps: all of the chunk is copied, and nothing is left to look at. -/
theorem httpChunkLoop_wraps {h : HttpClient} (iss : Nat) {n v : Nat} (l : Nat)
    (hk : h.httpCurChunkLen = 0)
    (hreach : h.rspReach = false) (hpos : n ≠ 0) (hshort : n ≤ 8) (hv : v < 4294967296)
    (hwrap : 4294967296 ≤ n + v + 4) :
    ∃ iss' left, ∀ b fuel, strstr (b.drop iss) crlf = some n →
      strtoul 16 ((b.drop iss).take n) = v → b.length ≤ iss + n + 2 + v →
      httpChunkLoop (fuel + 2) b iss (n + 2 + l) h =
        .ok (iss', left, h.loopTake b (iss + n + 2) v v) := by
  have hoffset : (n + v + 4) % 4294967296 = n + v + 4 - 4294967296 := by
    rw [Nat.mod_eq_sub_mod hwrap, Nat.mod_eq_of_lt (by omega)]
  have hvpos : 0 < v := by omega
  -- whatever the sum comes to, the whole chunk is taken to be there
  obtain ⟨left, hleft⟩ : ∃ left,
      (if n + 2 + l < n + v + 4 - 4294967296 then
          if sub32 (n + v + 4 - 4294967296) 2 ≤ n + 2 + l then
            (v, sub32 (sub32 (sub32 (n + 2 + l) n) 2) v)
          else (sub32 (sub32 (n + 2 + l) n) 2, 0)
        else (v, sub32 (sub32 (sub32 (n + 2 + l) v) n) 2)) = (v, left) := by
    split
    · rw [if_pos (by rw [sub32_of_le (by omega)]; omega)]
      exact ⟨_, rfl⟩
    · exact ⟨_, rfl⟩
  have hstop : ∀ (b : List UInt8) (fuel iss' left : Nat), b.length ≤ iss' →
      httpChunkLoop (fuel + 1) b iss' left (h.loopTake b (iss + n + 2) v v) =
        .ok (iss', left, h.loopTake b (iss + n + 2) v v) := by
    intro b fuel iss' left hend
    rw [httpChunkLoop, loopTake_len, Nat.sub_self, if_neg (not_not.mpr rfl),
      List.drop_of_length_le hend]
    rfl
  refine ⟨if 2 ≤ left then iss + n + 2 + v + 2 else iss + n + 2 + v,
    if 2 ≤ left then left - 2 else left, fun b fuel hstr hvalue hend => ?_⟩
  rw [httpChunkLoop, if_neg (not_not.mpr hk)]
  simp only [hstr, hvalue, hoffset, hleft, Nat.lt_irrefl, if_false]
  rw [if_neg (show ¬ h.rspReach = true by rw [hreach]; decide),
    if_neg (show ¬ httpHexStrMaxSize < n from Nat.not_lt.mpr hshort), if_neg hpos,
    if_neg fun h => hvpos.ne' h.1]
  have hend' : b.length ≤ iss + n + 2 + v + 2 := hend.trans (Nat.le_add_right _ 2)
  have hlast := hstop b fuel (iss + n + 2 + v) left hend
  have hlast' := hstop b fuel (iss + n + 2 + v + 2) (left - 2) hend'
  unfold loopTake at hlast hlast' ⊢
  simp only [if_pos hvpos, store_receiveSize, store_httpCurChunkLen, Nat.sub_self, true_and]
    at hlast hlast' ⊢
  split
  · exact hlast'
  · exact hlast

/-- How the loop ends with the piece `q` of a body before it and `w` behind that. -/
inductive LoopEnds (h : HttpClient) (input q w d : List UInt8) (r : Option (List Chunk)) :
    Except (Bool × HttpClient) (Nat × Nat × HttpClient) → Prop
  | complete {h' : HttpClient} {k n : Nat} : Stores h d h' → w = [] → 5 ≤ q.length →
      LoopEnds h input q w d r (.error (true, { h' with
        httpCurChunkLen := k
        bodySize := n
        receiveStatus := .complete }))
  | goesOn {iss : Nat} {h' : HttpClient} {e d' : List UInt8} {r' : Option (List Chunk)} :
      d = e ++ d' → Stores h e h' → PieceAt input w iss h' d' r' →
      (input.drop iss ≠ [] →
        h'.httpCurChunkLen = 0 ∧ strstr (input.drop iss) crlf = none) →
      (r' = none → r = none ∨ w ≠ []) →
      Onward w.length r q.length r' (input.drop iss).length →
      LoopEnds h input q w d r (.ok (iss, (input.drop iss).length, h'))

/-- The loop ends, whatever stands behind the piece, and the size lines in the piece fit. -/
structure Ended (input w : List UInt8) (iss : Nat) (h : HttpClient) (d : List UInt8)
    (r : Option (List Chunk)) (res : Except (Bool × HttpClient) (Nat × Nat × HttpClient)) :
    Prop where
  loop : ∀ b fuel, Buffered input b → (input.drop iss).length < fuel →
    httpChunkLoop fuel b iss (input.drop iss).length h = res
  ends : LoopEnds h input (input.drop iss) w d r res
  fits : PieceFits r (input.drop iss).length w.length

/-- What is stored depends on what stands behind the piece. -/
def LooksBehind (input : List UInt8) (iss : Nat) (h : HttpClient) : Prop :=
  ∃ iss' left h₁ h₂,
    (∀ fuel, (input.drop iss).length < fuel →
      httpChunkLoop fuel input iss (input.drop iss).length h = .ok (iss', left, h₁)) ∧
    (∀ fuel, (input.drop iss).length < fuel →
      httpChunkLoop fuel (input ++ [0, 1]) iss (input.drop iss).length h =
        .ok (iss', left, h₂)) ∧
    h₁.target ≠ h₂.target

/-- A pass of the loop that leads to another. -/
structure Pass (input w : List UInt8) (iss : Nat) (h : HttpClient) (d : List UInt8)
    (r : Option (List Chunk)) (iss' : Nat) (h' : HttpClient) (e d' : List UInt8)
    (r' : Option (List Chunk)) : Prop where
  loop : ∀ b fuel, Buffered input b →
    httpChunkLoop (fuel + 1) b iss (input.drop iss).length h =
      httpChunkLoop fuel b iss' (input.drop iss').length h'
  data : d = e ++ d'
  stores : Stores h e h'
  next : LoopAt input w iss' h' d' r'
  shorter : (input.drop iss').length < (input.drop iss).length
  last : r' = none → r = none ∨ w ≠ []
  onward : Onward w.length r (input.drop iss).length r' (input.drop iss').length
  fits : PieceFits r (input.drop iss).length w.length ↔
    PieceFits r' (input.drop iss').length w.length

section

variable {input w d e d' : List UInt8} {iss iss' : Nat} {h h' : HttpClient}
  {r r' : Option (List Chunk)}

/-- How the loop ends behind a pass, is how it ends. -/
theorem LoopEnds.after {res : Except (Bool × HttpClient) (Nat × Nat × HttpClient)}
    (hpass : Pass input w iss h d r iss' h' e d' r')
    (hends : LoopEnds h' input (input.drop iss') w d' r' res) :
    LoopEnds h input (input.drop iss) w d r res := by
  obtain ⟨-, rfl, hs, -, hshorter, hr, honward, -⟩ := hpass
  cases hends with
  | complete hs' hw hlen => exact .complete (hs.trans hs') hw (hlen.trans hshorter.le)
  | goesOn hd' hs' hat hstop hr' honward' =>
      subst hd'
      refine .goesOn (List.append_assoc _ _ _).symm (hs.trans hs') hat hstop (fun hnone => ?_)
        (honward.trans honward')
      rcases hr' hnone with hnone | hw
      · exact hr hnone
      · exact Or.inr hw

/-- Enough passes before a pass are enough behind it. -/
theorem Pass.run (hpass : Pass input w iss h d r iss' h' e d' r') {b : List UInt8} {fuel : Nat}
    (hb : Buffered input b) (hfuel : (input.drop iss).length < fuel) :
    ∃ fuel', (input.drop iss').length < fuel' ∧
      httpChunkLoop fuel b iss (input.drop iss).length h =
        httpChunkLoop fuel' b iss' (input.drop iss').length h' := by
  have hless := hpass.shorter
  obtain ⟨fuel', rfl⟩ := Nat.exists_eq_succ_of_ne_zero (Nat.ne_zero_of_lt hfuel)
  exact ⟨fuel', by omega, hpass.loop b fuel' hb⟩

theorem Ended.after {res : Except (Bool × HttpClient) (Nat × Nat × HttpClient)}
    (hpass : Pass input w iss h d r iss' h' e d' r') (hended : Ended input w iss' h' d' r' res) :
    Ended input w iss h d r res := by
  refine ⟨fun b fuel hb hfuel => ?_, .after hpass hended.ends, hpass.fits.mpr hended.fits⟩
  obtain ⟨fuel', hfuel', hloop⟩ := hpass.run hb hfuel
  rw [hloop, hended.loop b fuel' hb hfuel']

theorem LooksBehind.after (hpass : Pass input w iss h d r iss' h' e d' r')
    (hlooks : LooksBehind input iss' h') : LooksBehind input iss h := by
  obtain ⟨iss₂, left, h₁, h₂, hself, hjunk, hne⟩ := hlooks
  refine ⟨iss₂, left, h₁, h₂, fun fuel hfuel => ?_, fun fuel hfuel => ?_, hne⟩
  · obtain ⟨fuel', hfuel', hloop⟩ := hpass.run (.self input) hfuel
    rw [hloop, hself fuel' hfuel']
  · obtain ⟨fuel', hfuel', hloop⟩ := hpass.run (.junk input [1]) hfuel
    rw [hloop, hjunk fuel' hfuel']

end

section

variable {input w d : List UInt8} {iss : Nat} {h : HttpClient} {r : Option (List Chunk)}

/-- No line break is to be seen: the loop is left. -/
theorem LoopAt.stop (hat : LoopAt input w iss h d r)
    (hstr : strstr (input.drop iss) crlf = none)
    (hfits : PieceFits r (input.drop iss).length w.length) :
    Ended input w iss h d r (.ok (iss, (input.drop iss).length, h)) := by
  refine ⟨fun b fuel hb hfuel => ?_, .goesOn rfl (.refl hat.opened) hat.toPieceAt
    (fun hne => ⟨?_, hstr⟩) Or.inl (.refl _ _ (Nat.le_refl _)), hfits⟩
  · obtain ⟨fuel, rfl⟩ := Nat.exists_eq_succ_of_ne_zero (Nat.ne_zero_of_lt hfuel)
    by_cases hk : h.httpCurChunkLen = 0
    · rw [httpChunkLoop, if_neg (not_not.mpr hk), hb.strstr hat.le, hstr]
    · rw [httpChunkLoop, if_pos hk]
  · by_contra hk
    exact hne (hat.all hk)

/-- A line break is skipped. -/
theorem LoopAt.lineBreak (hat : LoopAt input w iss h d r) (hk : h.httpCurChunkLen = 0)
    (hd : d = dataBehind r) {q : List UInt8} (hq : input.drop iss = crlf ++ q)
    (hw : q ++ w = bytesBehind r) : Pass input w iss h d r (iss + 2) h [] d r := by
  have hstr : strstr (input.drop iss) crlf = some 0 := by
    rw [hq]
    exact strstr_lineBreak q
  have hdrop : input.drop (iss + 2) = q := by
    rw [← List.drop_drop, hq]
    rfl
  have hlen : (input.drop iss).length = q.length + 2 := by
    rw [hq]
    rfl
  have hle : iss + 2 ≤ input.length := by
    rw [List.length_drop] at hlen
    omega
  have hless : (input.drop (iss + 2)).length ≤ (input.drop iss).length := by
    rw [hdrop, hlen]
    omega
  have hbehind : (bytesBehind r).length ≤ (input.drop (iss + 2)).length + w.length := by
    rw [hdrop, ← List.length_append, hw]
  refine ⟨fun b fuel hb => ?_, rfl, .refl hat.opened,
    ⟨⟨hat.opened, hat.rspReach, hle, ?_, hat.room⟩, fun hne => absurd hk hne⟩, ?_, Or.inl,
    .refl _ _ hless, pieceFits_iff_of_le hless hbehind⟩
  · rw [httpChunkLoop, if_neg (not_not.mpr hk), hb.strstr hat.le, hstr]
    dsimp only
    rw [if_neg (show ¬ h.rspReach = true by rw [hat.rspReach]; decide),
      if_neg (Nat.not_lt_zero _), if_pos rfl, hlen, hdrop,
      sub32_of_le (Nat.le_add_left 2 q.length), Nat.add_sub_cancel]
  · rw [hk, hdrop, hw, hd]
    exact .line r
  · rw [hdrop, hlen]
    omega

variable {cs : List Chunk} {line bs q : List UInt8}

/-- What the loop reads of a size line that is all there. -/
theorem LoopAt.reads_line (hat : LoopAt input w iss h d (some cs))
    (hd : d = chunkedData cs) (hl : StartsWithLine cs line bs r)
    (hq : input.drop iss = line ++ (crlf ++ q)) {b : List UInt8} (hb : Buffered input b) :
    strstr (b.drop iss) crlf = some line.length ∧
      strtoul 16 ((b.drop iss).take line.length) = bs.length := by
  have hroom := hat.room
  rw [hd, hl.data, List.length_append] at hroom
  constructor
  · rw [hb.strstr hat.le, hq]
    exact hl.strstr_crlf q
  · have hline : line.length ≤ (input.drop iss).length := by
      rw [hq, List.length_append]
      exact Nat.le_add_right _ _
    rw [hb.take hline, hq, List.take_left]
    exact hl.strtoul_line (by omega)

theorem length_line_append (hq : input.drop iss = line ++ (crlf ++ q)) :
    (input.drop iss).length = line.length + 2 + q.length := by
  rw [hq, List.length_append, List.length_append, ← Nat.add_assoc]
  rfl

/-- The pass over a size line that is all there. -/
theorem LoopAt.sizeLine_pass (hat : LoopAt input w iss h d (some cs))
    (hk : h.httpCurChunkLen = 0) (hd : d = chunkedData cs) (hl : StartsWithLine cs line bs r)
    (hq : input.drop iss = line ++ (crlf ++ q)) (hfit : line.length + bs.length + 4 < 4294967296)
    {b : List UInt8} (hb : Buffered input b) (fuel : Nat) :
    httpChunkLoop (fuel + 1) b iss (input.drop iss).length h =
      if bs.length = 0 ∧ q.length = 2 then
        .error (true, { h with
          httpCurChunkLen := bs.length
          bodySize := bs.length
          receiveStatus := .complete })
      else
        let t := min bs.length q.length
        let h := h.loopTake input (iss + line.length + 2) bs.length t
        if bs.length - t = 0 ∧ 2 ≤ q.length - t then
          httpChunkLoop fuel b (iss + line.length + 2 + t + 2) (q.length - t - 2) h
        else httpChunkLoop fuel b (iss + line.length + 2 + t) (q.length - t) h := by
  obtain ⟨hstr, hvalue⟩ := hat.reads_line hd hl hq hb
  have hlen := length_line_append hq
  have hle := hat.le
  have htake : h.loopTake b (iss + line.length + 2) bs.length (min bs.length q.length) =
      h.loopTake input (iss + line.length + 2) bs.length (min bs.length q.length) :=
    hb.loopTake h (by rw [List.length_drop] at hlen; omega)
  rw [hlen, httpChunkLoop_pass fuel hk hat.rspReach hstr hl.length_ne hl.short hvalue hfit]
  dsimp only
  rw [htake]

/-- **A size line whose sum wraps.**  The chunk is copied from behind the piece. -/
theorem LoopAt.looksBehind (hat : LoopAt input w iss h d (some cs))
    (hinput : input.length ≤ httpRxBufDefaultSize) (hk : h.httpCurChunkLen = 0)
    (hd : d = chunkedData cs) (hl : StartsWithLine cs line bs r)
    (hq : input.drop iss = line ++ (crlf ++ q))
    (hwrap : ¬ line.length + bs.length + 4 < 4294967296) : LooksBehind input iss h := by
  have hroom := hat.room
  rw [hd, hl.data, List.length_append] at hroom
  have hsize : input.length ≤ 1460 := hinput
  have hshort := hl.short
  have hlen := length_line_append hq
  have htoken : iss + line.length + 2 ≤ input.length := by
    have hle := hat.le
    rw [List.length_drop] at hlen
    omega
  obtain ⟨iss', left, hloop⟩ := httpChunkLoop_wraps iss q.length hk hat.rspReach
    hl.length_ne hshort (show bs.length < 4294967296 by omega) (Nat.not_lt.mp hwrap)
  have hrun : ∀ b, Buffered input b → b.length ≤ input.length + 2 → ∀ fuel,
      (input.drop iss).length < fuel → httpChunkLoop fuel b iss (input.drop iss).length h =
        .ok (iss', left, h.loopTake b (iss + line.length + 2) bs.length bs.length) := by
    intro b hb hblen fuel hfuel
    obtain ⟨hstr, hvalue⟩ := hat.reads_line hd hl hq hb
    obtain ⟨fuel, rfl⟩ := Nat.exists_eq_add_of_le' (show 2 ≤ fuel by omega)
    rw [hlen]
    exact hloop b fuel hstr hvalue (by omega)
  refine ⟨iss', left, _, _, hrun input (.self input) (Nat.le_add_right _ 2),
    hrun (input ++ [0, 1]) (.junk input [1]) (by rw [List.length_append]; exact Nat.le_refl _),
    fun heq => ?_⟩
  -- the byte behind the zero byte
  have hpos : 0 < bs.length := by omega
  have hplace : iss + line.length + 2 + (input.length + 1 - (iss + line.length + 2)) =
      input.length + 1 := by omega
  have hbyte := congrFun heq (h.stored.length + (input.length + 1 - (iss + line.length + 2)))
  rw [target_loopTake hat.opened _ _ _ hpos, target_loopTake hat.opened _ _ _ hpos,
    Mem.memcpy_in (by omega), Mem.memcpy_in (by omega), Mem.ptr_apply, Mem.ptr_apply, hplace] at hbyte
  simp [Mem.ofList, List.getD] at hbyte

/-- The last chunk, with nothing behind it. -/
theorem LoopAt.last (hat : LoopAt input w iss h d (some cs)) (hk : h.httpCurChunkLen = 0)
    (hd : d = chunkedData cs) (hl : StartsWithLine cs line [] r)
    (hq : input.drop iss = line ++ (crlf ++ q)) (hbytes : q ++ w = crlf ++ bytesBehind r)
    (hq2 : q.length = 2) : ∃ res, Ended input w iss h d (some cs) res := by
  obtain rfl := hl.more rfl
  obtain rfl := (hl.last rfl).2
  have hw : w = [] := by
    have hlen := congrArg List.length hbytes
    rw [List.length_append, hq2] at hlen
    exact List.length_eq_zero_iff.mp (Nat.add_left_cancel (hlen.trans rfl))
  have hempty : d = [] := by rw [hd, hl.data]; rfl
  have hlen := length_line_append hq
  have hpos := hl.length_ne
  refine ⟨.error (true, { h with
    httpCurChunkLen := 0
    bodySize := 0
    receiveStatus := .complete }), fun b fuel hb hfuel => ?_, ?_, ?_⟩
  · obtain ⟨fuel, rfl⟩ := Nat.exists_eq_succ_of_ne_zero (Nat.ne_zero_of_lt hfuel)
    have hshort := hl.short
    rw [hat.sizeLine_pass hk hd hl hq (by rw [List.length_nil]; omega) hb, if_pos ⟨rfl, hq2⟩]
    rfl
  · rw [hempty]
    exact .complete (.refl hat.opened) hw (by omega)
  · exact fun c after hc => absurd (List.suffix_nil.mp hc) (List.cons_ne_nil _ _)

/-- **A size line** with as much of its chunk as there is. -/
theorem LoopAt.sizeLine (hat : LoopAt input w iss h d (some cs))
    (hk : h.httpCurChunkLen = 0) (hd : d = chunkedData cs) (hl : StartsWithLine cs line bs r)
    (hq : input.drop iss = line ++ (crlf ++ q)) (hbytes : q ++ w = bs ++ (crlf ++ bytesBehind r))
    (hfit : line.length + bs.length + 4 < 4294967296)
    (hmore : ¬ (bs.length = 0 ∧ q.length = 2)) :
    ∃ iss' h' e d', Pass input w iss h d (some cs) iss' h' e d' r := by
  have hdrop : input.drop (iss + line.length + 2) = q := by
    rw [Nat.add_assoc, ← List.drop_drop, hq, ← List.append_assoc]
    exact List.drop_left' (by simp [crlf])
  have hroom := hat.room
  rw [hd, hl.data] at hroom
  have hroom₀ : h.stored.length + bs.length < 4294967296 := by
    rw [List.length_append] at hroom
    omega
  have hlen := length_line_append hq
  have hle : iss + line.length + 2 + q.length ≤ input.length := by
    have hiss := hat.le
    rw [List.length_drop] at hlen
    omega
  have hall : (chunkedBytes cs).length = (input.drop iss).length + w.length := by
    rw [hlen, hl.bytes, ← hbytes]
    simp only [List.length_append, crlf, List.length_cons, List.length_nil]
    omega
  have hloop : ∀ b fuel, Buffered input b → _ := fun b fuel hb =>
    hat.sizeLine_pass hk hd hl hq hfit hb fuel
  simp only [if_neg hmore] at hloop
  generalize ht : min bs.length q.length = t at hloop
  obtain ⟨hstores, hmid, hrest⟩ := Stores.chunk (h := { h with
      httpCurChunkLen := bs.length
      bodySize := bs.length }) hat.opened (fun hnone => (hl.last hnone).1)
    (by rw [hdrop]; exact hbytes) hroom₀ (by rw [hdrop, ht])
  have hleft : (input.drop (iss + line.length + 2 + t)).length = q.length - t := by
    rw [length_drop_add, hdrop]
  have htaken : Stores h (bs.take t) (h.loopTake input (iss + line.length + 2) bs.length t) := by
    have hset := Stores.setLen hat.opened bs.length bs.length
    unfold loopTake
    dsimp only
    split
    · exact hset.trans hstores
    · next hzero =>
        rw [Nat.eq_zero_of_not_pos hzero]
        exact hset
  have hsplit : bs ++ dataBehind r = bs.take t ++ (bs.drop t ++ dataBehind r) := by
    rw [← List.append_assoc, List.take_append_drop]
  have hnext : iss + line.length + 2 + t ≤
      pastCrlf (bs.length - t) input (iss + line.length + 2 + t) := by
    unfold pastCrlf
    split <;> omega
  have hshorter :
      (input.drop (pastCrlf (bs.length - t) input (iss + line.length + 2 + t))).length <
        (input.drop iss).length := by
    rw [List.length_drop, List.length_drop]
    omega
  have hbehind := hmid.length_bytesBehind
  rw [List.length_append] at hbehind
  refine ⟨pastCrlf (bs.length - t) input (iss + line.length + 2 + t), _, bs.take t,
    bs.drop t ++ dataBehind r, fun b fuel hb => ?_, ?_, htaken,
    ⟨⟨htaken.opened, htaken.rspReach.trans hat.rspReach, pastCrlf_le (by omega), ?_,
      htaken.room (hsplit ▸ hroom)⟩, ?_⟩, hshorter, ?_, hl.onward (by omega) hshorter.le,
    (hl.pieceFits_whole hall (by omega) hshorter hbehind).trans (and_iff_right hfit)⟩
  · rw [hloop b fuel hb]
    unfold pastCrlf
    rw [hleft]
    split
    · rw [length_drop_add input (iss + line.length + 2 + t) 2, hleft]
    · rw [hleft]
  · rw [hd, hl.data]
    exact hsplit
  · rw [loopTake_len]
    exact hmid
  · rw [loopTake_len]
    exact hrest
  · -- behind the last chunk, and yet not complete: some of it is still to come
    rintro rfl
    refine Or.inr fun hw => hmore ?_
    have hnil := (hl.last rfl).1
    rw [hw, hnil] at hbytes
    exact ⟨congrArg List.length hnil, congrArg List.length ((List.append_nil q).symm.trans hbytes)⟩

/-- **A pass** ends the loop, leads to another, or copies from behind the piece. -/
theorem LoopAt.pass (hat : LoopAt input w iss h d r)
    (hinput : input.length ≤ httpRxBufDefaultSize) :
    (∃ res, Ended input w iss h d r res) ∨
      (∃ iss' h' e d' r', Pass input w iss h d r iss' h' e d' r') ∨
        (LooksBehind input iss h ∧ ¬ PieceFits r (input.drop iss).length w.length) := by
  by_cases hk : h.httpCurChunkLen = 0
  · have hmid := hat.mid
    rw [hk] at hmid
    obtain ⟨hv | hv, hd⟩ := hmid.zero
    · cases r with
      | none =>
          -- nothing is left
          refine Or.inl ⟨_, hat.stop ?_ (pieceFits_behind (Nat.zero_le _))⟩
          rw [(List.append_eq_nil_iff.mp hv).1]
          rfl
      | some cs =>
          obtain ⟨line, bs, r, hl⟩ := exists_startsWithLine cs
          have hall : (chunkedBytes cs).length = (input.drop iss).length + w.length := by
            rw [← List.length_append, hv]
            rfl
          by_cases hlen : (input.drop iss).length < line.length + 2
          · exact Or.inl ⟨_, hat.stop (hl.strstr_none hv hlen) (hl.pieceFits_short hall hlen)⟩
          · obtain ⟨q, hq, hbytes⟩ := hl.of_long hv (Nat.not_lt.mp hlen)
            by_cases hlast : bs.length = 0 ∧ q.length = 2
            · obtain rfl := List.length_eq_zero_iff.mp hlast.1
              exact Or.inl (hat.last hk hd hl hq hbytes hlast.2)
            · by_cases hfit : line.length + bs.length + 4 < 4294967296
              · obtain ⟨iss', h', e, d', hpass⟩ := hat.sizeLine hk hd hl hq hbytes hfit hlast
                exact Or.inr (Or.inl ⟨iss', h', e, d', r, hpass⟩)
              · refine Or.inr (Or.inr ⟨hat.looksBehind hinput hk hd hl hq hfit, fun hfits => ?_⟩)
                have hbehind : (bytesBehind r).length ≤ q.length + w.length := by
                  rw [← List.length_append, hbytes]
                  simp only [List.length_append]
                  omega
                have hlen := length_line_append hq
                exact hfit ((hl.pieceFits_whole hall (by omega) (by omega) hbehind).mp hfits).1
    · rcases lineBreak_cases hv with ⟨hlen, hstr⟩ | ⟨q, hq, hw⟩
      · refine Or.inl ⟨_, hat.stop hstr (pieceFits_behind ?_)⟩
        have hall := congrArg List.length hv
        simp only [List.length_append, crlf, List.length_cons, List.length_nil] at hall hlen
        omega
      · exact Or.inr (Or.inl ⟨iss + 2, h, [], d, r, hat.lineBreak hk hd hq hw⟩)
  · have hnil := hat.all hk
    refine Or.inl ⟨_, hat.stop ?_ ?_⟩
    · rw [hnil]
      rfl
    · rw [hnil]
      exact pieceFits_zero r _

end

/-! ## The loop -/

/-- **The loop** ends as it should where the size lines in the piece fit, and else it copies from
behind the piece. -/
theorem httpChunkLoop_spec {input w d : List UInt8} {iss : Nat} {h : HttpClient}
    {r : Option (List Chunk)} (hat : LoopAt input w iss h d r)
    (hinput : input.length ≤ httpRxBufDefaultSize) :
    (∃ res, Ended input w iss h d r res) ∨
      (LooksBehind input iss h ∧ ¬ PieceFits r (input.drop iss).length w.length) := by
  generalize hn : (input.drop iss).length = n
  induction n using Nat.strong_induction_on generalizing iss h d r with
  | _ n ih =>
      subst hn
      rcases hat.pass hinput with hended | ⟨iss', h', e, d', r', hpass⟩ | hlooks
      · exact Or.inl hended
      · rcases ih _ hpass.shorter hpass.next rfl with ⟨res, hended⟩ | ⟨hlooks, hfits⟩
        · exact Or.inl ⟨res, hended.after hpass⟩
        · exact Or.inr ⟨hlooks.after hpass, fun hall => hfits (hpass.fits.mp hall)⟩
      · exact Or.inr hlooks

end HttpClient

end IntercomSalve
