/-
# `UpgradeUrl` — the address of an upgrade, out of a frame

The payload of frame 0x23 is a type byte, a separator, the address and five bytes of port.  Its
case copies `Current_data_length-7` bytes from the third byte on into `HTTP_URL`, which has 129.
The length is the frame's own, and nothing is asked about it: a frame shorter than seven bytes
makes it wrap, a long one runs over the buffer, and a frame of which part is still to come is
copied with whatever stands behind the chunk.

    the copy is safe and exact  ⟺  the address fits, with its zero byte, and has arrived
                                                                          (`copiesUrl_iff`)
-/
import IntercomSalve.Answer

namespace IntercomSalve

open Goto

/-- `HTTP_URL = malloc (128 + 1)`. -/
def httpUrlSize : Nat := 129

/-- How many bytes are copied. -/
def urlCopied (len : Nat) : Nat := sub32 len 7

/-- Byte `i` of the receive buffer is a payload byte of the frame `d` bytes into the chunk, and has
arrived. -/
def PayloadByte (chunk : List UInt8) (d len i : Nat) : Prop :=
  d + 8 ≤ i ∧ i < d + 8 + len ∧ i < chunk.length

/-- The copy of the frame `d` bytes into the chunk is safe and exact. -/
structure CopiesUrl (chunk : List UInt8) (d len : Nat) (t : App) : Prop where
  /-- it stays inside `HTTP_URL` -/
  room : urlCopied len ≤ httpUrlSize
  /-- and leaves a zero byte there -/
  terminated : ∃ k < httpUrlSize, t.httpUrl k = 0
  /-- only payload bytes are read -/
  source : ∀ i < urlCopied len, PayloadByte chunk d len (d + 10 + i)
  /-- an address that fits is stored, and zeros behind it -/
  exact : 7 ≤ len → len ≤ 135 →
    t.httpUrl.slice 0 (len - 7) = (Mem.ofList chunk).slice (d + 10) (len - 7) ∧
      ∀ k, len - 7 ≤ k → k < httpUrlSize → t.httpUrl k = 0

/-- The address fits into `HTTP_URL`, with its zero byte, and has arrived. -/
def UrlFits (chunk : List UInt8) (d len : Nat) : Prop :=
  (7 ≤ len ∧ len ≤ 135 ∨ len = 136 ∧ (0 : UInt8) ∈ (Mem.ofList chunk).slice (d + 10) 129) ∧
    (len = 7 ∨ d + len + 3 ≤ chunk.length)

theorem urlCopied_le_iff {len : Nat} (hlen : len < 65536) :
    urlCopied len ≤ httpUrlSize ↔ 7 ≤ len ∧ len ≤ 136 := by
  unfold urlCopied sub32 httpUrlSize
  split <;> omega

/-- What the case makes of `HTTP_URL`. -/
theorem isCmd_httpUrl {ret : Nat} {w : App} (hframe : frameAt ⟨w, some ret⟩ = some .instruction32) :
    (isCmd ret w).state.httpUrl = (w.httpUrl.memset 0 httpUrlSize).memcpy 0
      (w.rx.pRecv.ptr (10 + w.rx.handleDeviation)) (urlCopied (lenAt w)) := by
  rcases isCmd_frameAt ret w with ⟨c, hc, h⟩ | ⟨hc, -⟩
  · rw [hframe] at hc
    obtain rfl := Option.some.inj hc
    rw [h]
    rfl
  · rw [hframe] at hc
    exact absurd hc (Option.some_ne_none _)

/-- The buffer holds the chunk when the frame is found. -/
theorem pRecv_of_visits {n : Nat} {chunk : List UInt8} {s u w : App}
    (hu : message122 n chunk s = .again u) (hw : Visits (isCmd chunk.length) u w) {i : Nat}
    (hi : i < chunk.length) : w.rx.pRecv i = Mem.ofList chunk i := by
  have hside := message122_recvSide n chunk s
  rw [hu] at hside
  rw [(visits_pRecv hw).1]
  exact (congrFun hside.pRecv i).trans (received_of_lt hi)

/-- Which bytes are copied, when all of them have arrived. -/
theorem source_iff {chunk : List UInt8} {d len : Nat} (hmin : 7 ≤ len) :
    (∀ i < urlCopied len, PayloadByte chunk d len (d + 10 + i)) ↔
      len = 7 ∨ d + len + 3 ≤ chunk.length := by
  have hcopied : urlCopied len = len - 7 := sub32_of_le hmin
  rw [hcopied]
  constructor
  · intro h
    by_cases hempty : len = 7
    · exact .inl hempty
    · obtain ⟨-, -, hlast⟩ := h (len - 8) (by omega)
      exact .inr (by omega)
  · rintro h i hi
    refine ⟨by omega, by omega, ?_⟩
    rcases h with h | h <;> omega

/-- **The address of an upgrade.**  For every chunk and every frame 0x23 that is read in it: the copy
is safe and exact, exactly if the address fits and has arrived.  `w` is the state in which the frame
is found, and `lenAt w` the length it declares. -/
theorem copiesUrl_iff {n d : Nat} {chunk : List UInt8} {s u w : App}
    (hu : message122 n chunk s = .again u) (hw : Visits (isCmd chunk.length) u w)
    (hd : w.rx.handleDeviation = d)
    (hframe : frameAt ⟨w, some chunk.length⟩ = some .instruction32) :
    CopiesUrl chunk d (lenAt w) (isCmd chunk.length w).state ↔ UrlFits chunk d (lenAt w) := by
  have hurl := isCmd_httpUrl hframe
  have hlen : lenAt w < 65536 := by
    have h6 := UInt8.toNat_lt (w.rx.byteAt 6)
    have h7 := UInt8.toNat_lt (w.rx.byteAt 7)
    unfold lenAt
    omega
  generalize lenAt w = len at hurl hlen
  generalize (isCmd chunk.length w).state = t at hurl
  -- where a byte is copied from, once it has arrived
  have hcopied : ∀ k, k < urlCopied len → d + 10 + k < chunk.length →
      t.httpUrl k = Mem.ofList chunk (d + 10 + k) := by
    intro k hk harrived
    have hin : ((w.httpUrl.memset 0 httpUrlSize).memcpy 0
        (w.rx.pRecv.ptr (10 + w.rx.handleDeviation)) (urlCopied len)) (0 + k) =
          w.rx.pRecv.ptr (10 + w.rx.handleDeviation) k := Mem.memcpy_in hk
    rw [Nat.zero_add] at hin
    rw [hurl, hin, Mem.ptr_apply, hd, Nat.add_comm 10 d]
    exact pRecv_of_visits hu hw harrived
  have hbehind : ∀ k, urlCopied len ≤ k → k < httpUrlSize → t.httpUrl k = 0 := by
    intro k hk hsize
    rw [hurl]
    unfold Mem.memcpy Mem.memset
    rw [if_neg (by omega), if_pos hsize]
  constructor
  · intro h
    obtain ⟨hmin, hmax⟩ := (urlCopied_le_iff hlen).mp h.room
    have harrived := (source_iff hmin).mp h.source
    refine ⟨?_, harrived⟩
    by_cases hfull : len = 136
    · right
      refine ⟨hfull, ?_⟩
      obtain ⟨k, hk, hzero⟩ := h.terminated
      have hall : urlCopied len = 129 := by rw [hfull]; rfl
      have hk' : k < 129 := hk
      have hbyte := hcopied k (by omega) (by omega)
      refine List.mem_map.mpr ⟨k, List.mem_range.mpr hk', ?_⟩
      rw [← hbyte, hzero]
    · left
      omega
  · rintro ⟨hfits, harrived⟩
    have hmin : 7 ≤ len := by omega
    have hcount : urlCopied len = len - 7 := sub32_of_le hmin
    refine ⟨(urlCopied_le_iff hlen).mpr (by omega), ?_, (source_iff hmin).mpr harrived, ?_⟩
    · rcases hfits with hfits | ⟨hfull, hzero⟩
      · exact ⟨128, by decide, hbehind 128 (by omega) (by decide)⟩
      · obtain ⟨k, hk, hbyte⟩ := List.mem_map.mp hzero
        have hk := List.mem_range.mp hk
        exact ⟨k, hk, (hcopied k (by omega) (by omega)).trans hbyte⟩
    · intro _ hmax
      refine ⟨Mem.slice_congr fun k hk => ?_, fun k hk hsize => hbehind k (by omega) hsize⟩
      rw [Nat.zero_add]
      exact hcopied k (by omega) (by omega)

/-- The address `hi`. -/
def hiFrame : List UInt8 :=
  [0xAA, 0xFA, 0x00, 0x00, 0x01, 0x23, 0x00, 0x09, 0x31, 0x2C, 0x68, 0x69, 0x2C, 0x38, 0x30, 0x38,
    0x30]

theorem hiFrame_copiesUrl :
    ∃ n s u, Receives n s ∧ message122 n hiFrame s = .again u ∧
      CopiesUrl hiFrame 0 9 (isCmd hiFrame.length u).state := by
  obtain ⟨n, s, u, hr, hu, hd, hframe, hlen⟩ : ∃ n s u, Receives n s ∧
      message122 n hiFrame s = .again u ∧ u.rx.handleDeviation = 0 ∧
        frameAt ⟨u, some hiFrame.length⟩ = some .instruction32 ∧ lenAt u = 9 :=
    ⟨17, _, _, Receives.of_runActs
      (l := [.socketEvent (.readInd 17), .socket Platform.silent]) rfl rfl rfl, rfl, rfl, rfl, rfl⟩
  have hcopies := copiesUrl_iff hu .refl hd hframe
  rw [hlen] at hcopies
  exact ⟨n, s, u, hr, hu, hcopies.mpr ⟨.inl ⟨by decide, by decide⟩, .inr (by decide)⟩⟩

/-- A frame without payload: four gigabytes less seven are copied. -/
theorem emptyFrame_not_copiesUrl :
    ∃ n s u, Receives n s ∧
      message122 n [0xAA, 0xFA, 0x00, 0x00, 0x01, 0x23, 0x00, 0x00] s = .again u ∧
      u.rx.handleDeviation = 0 ∧ frameAt ⟨u, some 8⟩ = some .instruction32 ∧ lenAt u = 0 ∧
      ¬ CopiesUrl [0xAA, 0xFA, 0x00, 0x00, 0x01, 0x23, 0x00, 0x00] 0 0 (isCmd 8 u).state := by
  have hr := Receives.of_runActs (l := [.socketEvent (.readInd 8), .socket Platform.silent])
    rfl rfl rfl
  exact ⟨8, _, _, hr, rfl, rfl, rfl, rfl, fun h => absurd h.room (by decide)⟩

end IntercomSalve
