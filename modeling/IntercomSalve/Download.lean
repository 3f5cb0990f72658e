/-
# `Download` — the handler of message 122, and the response it downloads

The callback of `http_get` posts message 122 when the response has begun well:
status 200, and either the whole body or its first 2048 bytes are there
(`httpGetCallback`).  The handler of that message reads the body in pieces of
1024 bytes into `fota.img` and calls `Fota_test ()` behind its loop, whichever
way the loop is left (`message122`).

A response is a header and a body (`HttpResponse`): the header ends at its
first empty line, and the first place in it with the name of the field states
the length of the body.  From a buffer that begins with the header the client
reads just that (`httpDecodeLength_header`), from a shorter one nothing
(`headerEnd_none`).
-/
import IntercomSalve.HttpClient

namespace IntercomSalve

open CString

namespace HttpClient

/-! ## Message 122 -/

/-- `http_get_callback`: the message it posts. -/
def httpGetCallback : HttpAnswer → Option Nat
  | .rspCb errCode httprspcode _ =>
      if errCode = 0 ∧ httprspcode = httpResponseCodeOk then some 122 else none
  | .redirect => none

/-- The loop of message 122, with what is in `fota.img` and in `bytesRead`. -/
def writeImage : Nat → List UInt8 → Nat → HttpClient → Sock → Option (List UInt8)
  | 0, _, _, _, _ => none
  | fuel + 1, img, bytesRead, h, k =>
    (httpReadContentDataAndLen 1024 bytesRead false h k).bind fun r =>
      if r.ret ≠ 0 then some img
      else
        let img := img ++ r.pData.slice 0 r.actualDataLen
        if r.readEnd then some img else writeImage fuel img r.actualDataLen r.http r.sock

/-- The handler of message 122: what is in `fota.img` at each call of `Fota_test`.
Every pass of the loop but the last one takes a byte at least, from `pBody` or from the
socket. -/
def message122 (h : HttpClient) (k : Sock) : Option (List (List UInt8)) :=
  (writeImage (h.bodyBufLen + k.bytes.length + 1) [] 0 h k).map fun img => [img]

end HttpClient

/-! ## Responses -/

/-- A response with a `Content-Length`. -/
structure HttpResponse where
  /-- The status line and the fields before the one with the length. -/
  pre : List UInt8
  blanks : List UInt8
  digits : List UInt8
  /-- The byte that ends the number, and the rest of the header. -/
  stop : UInt8
  post : List UInt8
  body : List UInt8
  noNul : (0 : UInt8) ∉ pre ++ (contentLengthName ++ (blanks ++ (digits ++ stop :: post)))
  first : occurs contentLengthName
    (pre ++ (contentLengthName ++ (blanks ++ (digits ++ stop :: post)))) = some pre.length
  blank : ∀ b ∈ blanks, b = 32 ∨ b = 9
  number : digits ≠ []
  isDigit : ∀ d ∈ digits, 48 ≤ d.toNat ∧ d.toNat ≤ 57
  noDigit : ¬ (48 ≤ stop.toNat ∧ stop.toNat ≤ 57)
  ends : occurs headerEnd (pre ++ (contentLengthName ++ (blanks ++ (digits ++ stop :: post))))
    = some ((pre ++ (contentLengthName ++ (blanks ++ (digits ++ stop :: post)))).length - 4)
  length_body : decimal digits = body.length
  fits : body.length < 4294967296

namespace HttpResponse

variable (r : HttpResponse)

/-- The header, with the empty line. -/
def header : List UInt8 :=
  r.pre ++ (contentLengthName ++ (r.blanks ++ (r.digits ++ r.stop :: r.post)))

/-- All the bytes of the response. -/
def bytes : List UInt8 := r.header ++ r.body

/-- The status that the client reads. -/
def status : Int := (HttpClient.httpParseRspCode r.header).bmod 65536

theorem noNul_header : (0 : UInt8) ∉ r.header := r.noNul

theorem occurs_name : occurs contentLengthName r.header = some r.pre.length := r.first

theorem occurs_end : occurs headerEnd r.header = some (r.header.length - 4) := r.ends

theorem four_le_length : 4 ≤ r.header.length := by
  have h := occurs_le r.occurs_end
  have h4 : headerEnd.length = 4 := rfl
  omega

theorem strstr_name (t : List UInt8) :
    strstr (r.header ++ t) contentLengthName = some r.pre.length := by
  rw [strstr, cString_append_of_noNul r.noNul_header]
  exact occurs_append _ r.occurs_name

theorem strstr_end (t : List UInt8) :
    strstr (r.header ++ t) headerEnd = some (r.header.length - 4) := by
  rw [strstr, cString_append_of_noNul r.noNul_header]
  exact occurs_append _ r.occurs_end

/-- A part of the header does not look like one. -/
theorem headerEnd_none {t : List UInt8} (ht : t <+: r.header) (hlen : t.length < r.header.length) :
    strstr t headerEnd = none := by
  have hnul : (0 : UInt8) ∉ t := fun h0 => r.noNul_header (ht.subset h0)
  rw [strstr, cString_of_noNul hnul]
  refine occurs_eq_none_of_shorter r.occurs_end ht ?_
  have h4 := r.four_le_length
  have : headerEnd.length = 4 := rfl
  omega

theorem startsWith_header {lit : List UInt8} (hlen : lit.length ≤ r.header.length)
    (t : List UInt8) : startsWith (r.header ++ t) lit = startsWith r.header lit := by
  rw [Bool.eq_iff_iff, startsWith, startsWith, List.isPrefixOf_iff_prefix,
    List.isPrefixOf_iff_prefix, cString_append_of_noNul r.noNul_header,
    cString_of_noNul r.noNul_header]
  exact ⟨fun h => List.prefix_of_prefix_length_le h (List.prefix_append _ _) hlen,
    fun h => h.trans (List.prefix_append _ _)⟩

/-- A header that starts with a literal in which there is no `C` has the name behind it. -/
theorem length_le_pre {lit : List UInt8} (hlit : (67 : UInt8) ∉ lit)
    (h : startsWith r.header lit = true) : lit.length ≤ r.pre.length := by
  rw [startsWith, List.isPrefixOf_iff_prefix, cString_of_noNul r.noNul_header] at h
  by_contra hlt
  have hget : r.header[r.pre.length]? = some 67 := by
    rw [header, List.getElem?_append_right (Nat.le_refl _), Nat.sub_self]
    rfl
  obtain ⟨u, hu⟩ := h
  rw [← hu, List.getElem?_append_left (by omega)] at hget
  exact hlit (List.mem_of_getElem? hget)

/-- The status is read from the header alone. -/
theorem httpParseRspCode_header (t : List UInt8) :
    HttpClient.httpParseRspCode (r.header ++ t) = HttpClient.httpParseRspCode r.header := by
  have h15 : 15 ≤ r.header.length := by
    have := occurs_le r.occurs_name
    have : contentLengthName.length = 15 := rfl
    omega
  have h8 : http10.length ≤ r.header.length := Nat.le_trans (by decide) h15
  have h8' : http11.length ≤ r.header.length := Nat.le_trans (by decide) h15
  unfold HttpClient.httpParseRspCode
  rw [r.startsWith_header h8, r.startsWith_header h8']
  by_cases hstart : (!startsWith r.header http10 && !startsWith r.header http11) = true
  · rw [if_pos hstart, if_pos hstart]
  · rw [if_neg hstart, if_neg hstart]
    have hpre : http11.length ≤ r.pre.length := by
      simp only [Bool.and_eq_true, Bool.not_eq_true', not_and, Bool.not_eq_false] at hstart
      rcases Bool.eq_false_or_eq_true (startsWith r.header http10) with h | h
      · have h10 : http10.length ≤ r.pre.length := r.length_le_pre (by decide) h
        exact h10
      · exact r.length_le_pre (by decide) (hstart h)
    have hdrop : ∀ u : List UInt8, (r.header ++ u).drop http11.length
        = r.pre.drop http11.length
          ++ 67 :: (contentLengthName.tail ++ (r.blanks ++ (r.digits ++ r.stop :: (r.post ++ u)))) := by
      intro u
      rw [header, List.append_assoc, List.drop_append_of_le_length hpre]
      simp only [List.append_assoc, List.cons_append]
      rfl
    have h0 := hdrop []
    rw [List.append_nil] at h0
    rw [hdrop t, h0, dropWhile_append_cons (by decide), dropWhile_append_cons (by decide)]
    refine strtol_congr (fun hmem => ?_) (by decide) (by decide) _ _
    refine r.noNul_header (List.mem_append_left _ ?_)
    exact List.mem_of_mem_drop (List.dropWhile_subset _ hmem)

/-- The length that the client reads is the one of the body. -/
theorem httpDecodeLength_header (h : HttpClient) (t : List UInt8) :
    h.httpDecodeLength (r.header ++ t)
      = { h with bodySize := r.body.length, receiveStatus := .content, isContentLen := true } := by
  have hdrop : (r.header ++ t).drop (r.pre.length + contentLengthName.length)
      = r.blanks ++ (r.digits ++ r.stop :: (r.post ++ t)) := by
    rw [header, ← List.append_assoc r.pre, ← List.length_append]
    simp
  have hdigits : ∀ d ∈ r.digits, CString.digits 10 [d] ≠ [] := fun d hd =>
    digits_ten_ne_nil_iff.mpr (r.isDigit d hd)
  have hstop : CString.digits 10 [r.stop] = [] := by
    by_contra hne
    exact r.noDigit (digits_ten_ne_nil_iff.mp hne)
  have hstop0 : r.stop ≠ 0 := by
    intro h0
    exact r.noNul (by simp [h0])
  have hblank : ∀ c ∈ r.blanks.dropWhile (· = 32), c ≠ 0 ∧ isSpace c = true := by
    intro c hc
    rcases r.blank c (List.dropWhile_subset _ hc) with rfl | rfl
    · exact ⟨by decide, by decide⟩
    · exact ⟨by decide, by decide⟩
  have hskip : (r.blanks ++ (r.digits ++ r.stop :: (r.post ++ t))).dropWhile (· = 32)
      = r.blanks.dropWhile (· = 32) ++ (r.digits ++ r.stop :: (r.post ++ t)) := by
    obtain ⟨d, ds, hds⟩ := List.exists_cons_of_ne_nil r.number
    have hd := r.isDigit d (by simp [hds])
    have h32 : d ≠ 32 := by
      rintro rfl
      exact absurd hd.1 (by decide)
    rw [hds, List.cons_append]
    exact dropWhile_append_cons (by simp [h32]) _ _
  simp only [HttpClient.httpDecodeLength, r.strstr_name, hdrop, hskip]
  rw [strtoul_decimal hblank r.number hdigits hstop0 hstop _ (by rw [r.length_body]; exact r.fits),
    r.length_body]

end HttpResponse

end IntercomSalve
