/-
# `RequestText` — what the text of a request says, and the room it takes

A server reads the text of a request as a head: the method, the path of the URL, the
version and the fields, and behind it the data that is posted, as many bytes as
`Content-Length` says.  Where nothing in the URL ends a line or a word too early, and
the application adds no field that does, every text that is sent in any run says what
the client means (`requests_read`).

The buffer for the text is sized for the longest URL (`HTTP_DEF_HEAD_MAX_SIZE`), not
for the fields of the application.  What is left for those is 244 bytes; with no more
of them, and a size that fits 32 bits, no text is longer than its buffer (`requests_fit`).
A text that is longer is written past the end of it, and that has no place here:
`requests_read` tells what the text is, whatever room there is for it.
-/
import IntercomSalve.RequestRuns

namespace IntercomSalve

open CString HttpHead HttpClient

/-! ## Reading a request -/

/-- A key and a value that make a field. -/
def HttpHeaderKv.IsField (kv : HttpHeaderKv) : Prop := HttpHead.IsField kv.key kv.value

/-- Nothing ends the lines that host and path stand on. -/
structure UriInfo.OnLines (u : UriInfo) : Prop where
  uri : 13 ∉ u.uri.getD [] ∧ 32 ∉ u.uri.getD []
  host : 13 ∉ u.host.getD [] ∧ (u.host.getD []).head? ≠ some 32

namespace HttpSession

/-- The fields of a request to a URL. -/
def requestFields (s : HttpSession) (u : UriInfo) : List (List UInt8 × List UInt8) :=
  [(hostName, u.host.getD [] ++ portText u), (connectionName, keepAlive)]
    ++ (contentTypeValue s.contentType).toList.map (fun v => (contentTypeName, v))
    ++ s.usedKv.map fun kv => (kv.key, kv.value)

/-- What the text of a request to a URL is to be read as. -/
def Says (s : HttpSession) (u : UriInfo) (t : List UInt8) : Prop :=
  ∃ h body contentLength, HttpHead.read t = some (h, body) ∧
    h.method = (if s.http.actionType = .get then getWord else postWord) ∧
    h.target = u.uri.getD [] ∧ h.version = http11 ∧
    h.fields.map Field.pair = s.requestFields u ++
      (if s.http.actionType = .get then [] else [(lengthName, contentLength)]) ∧
    decimal contentLength = body.length ∧ (s.http.actionType = .get → body = [])

/-- The lines that the client writes itself are the first line and the fields. -/
theorem requestLines_eq (s : HttpSession) :
    s.requestLines = (if s.http.actionType = .get then getWord else postWord)
      ++ 32 :: (s.urlInfo.uri.getD [] ++ 32 :: http11) ++ (lineEnd ++
      (s.requestFields s.urlInfo).flatMap fun p => p.1 ++ [58, 32] ++ p.2 ++ lineEnd) := by
  have hcrlf : crlf = lineEnd := rfl
  unfold requestLines requestFields fieldLine
  rw [hcrlf]
  cases contentTypeValue s.contentType <;> simp [List.flatMap_map]

/-- There is nothing but digits behind the colon. -/
theorem portText_ok (u : UriInfo) :
    13 ∉ portText u ∧ (portText u).head? ≠ some 32 := by
  unfold portText
  split
  · refine ⟨?_, fun h => absurd (Option.some.inj h) (by decide)⟩
    rw [List.mem_cons]
    rintro (h | h)
    · exact absurd h (by decide)
    · exact absurd (isDigit_printDecimal h).1 (by decide)
  · exact ⟨List.not_mem_nil, by decide⟩

theorem isField_host {u : UriInfo} (hu : u.OnLines) :
    HttpHead.IsField hostName (u.host.getD [] ++ portText u) := by
  obtain ⟨hport, hhead⟩ := portText_ok u
  refine ⟨by decide, ?_, ?_⟩
  · rw [List.mem_append]
    exact not_or.mpr ⟨hu.host.1, hport⟩
  · cases hhost : u.host.getD [] with
    | nil => exact hhead
    | cons b l =>
        have := hu.host.2
        rwa [hhost] at this

theorem isField_contentType {contentType : HttpContentType} {v : List UInt8}
    (h : contentTypeValue contentType = some v) : HttpHead.IsField contentTypeName v := by
  unfold HttpHead.IsField
  cases contentType <;> first | cases h; decide | exact absurd h (by simp [contentTypeValue])

theorem isField_requestFields {s : HttpSession} {u : UriInfo} (hu : u.OnLines)
    (hkv : ∀ kv ∈ s.usedKv, kv.IsField) : ∀ p ∈ s.requestFields u, HttpHead.IsField p.1 p.2 := by
  intro p hp
  unfold requestFields at hp
  rcases List.mem_append.mp hp with hp | hp
  · rcases List.mem_append.mp hp with hp | hp
    · rcases List.mem_cons.mp hp with rfl | hp
      · exact isField_host hu
      · obtain rfl := List.mem_singleton.mp hp
        exact ⟨by decide, by decide⟩
    · obtain ⟨v, hv, rfl⟩ := List.mem_map.mp hp
      exact isField_contentType (Option.mem_toList.mp hv)
  · obtain ⟨kv, hmem, rfl⟩ := List.mem_map.mp hp
    exact hkv kv hmem

theorem isField_length (n : Nat) : HttpHead.IsField lengthName (printDecimal n) := by
  have hdigit {b : UInt8} (hb : b ∈ printDecimal n) : 48 ≤ b.toNat := (isDigit_printDecimal hb).1
  refine ⟨by decide, fun h => absurd (hdigit h) (by decide), fun h => ?_⟩
  exact absurd (hdigit (List.mem_of_mem_head? h)) (by decide)

/-- A request of either kind. -/
def IsRequest (s : HttpSession) : Prop := s.http.actionType = .get ∨ s.http.actionType = .post

/-- The text, where the application has no header of its own. -/
theorem pack_text {s : HttpSession} (hact : s.IsRequest) (h0 : s.reqHeader = 0) :
    s.httpConstructRequestPack.pHttpTxBuf = s.requestLines
      ++ (if s.http.actionType = .get then []
          else fieldLine lengthName (printDecimal s.http.bodySize))
      ++ crlf ++ (if s.http.actionType = .get then [] else s.body) := by
  rcases hact with hget | hpost
  · simp [pack_get hget, h0, hget]
  · unfold httpConstructRequestPack
    simp [hpost, h0]

/-- There are as many bytes behind the head as `Content-Length` says. -/
theorem length_body {s : HttpSession} (hb : s.http.pBody.isSome) :
    s.body.length = s.http.bodySize := by
  obtain ⟨m, hm⟩ := Option.isSome_iff_exists.mp hb
  unfold body
  rw [hm]
  exact Mem.length_slice _ _ _

/-- **The text is read back**, as it is meant. -/
theorem pack_says {s : HttpSession} (hact : s.IsRequest) (h0 : s.reqHeader = 0)
    (hbody : s.http.actionType = .post → s.http.pBody.isSome)
    (hkv : ∀ kv ∈ s.usedKv, kv.IsField) (hu : s.urlInfo.OnLines) :
    s.Says s.urlInfo s.httpConstructRequestPack.pHttpTxBuf := by
  have hfields := isField_requestFields hu hkv
  have hcrlf : crlf = lineEnd := rfl
  rcases hact with hget | hpost
  · have hno : ¬ s.http.actionType = .post := by
      rw [hget]
      decide
    obtain ⟨h, ⟨hm, ht, hv, hf⟩, htext⟩ := exists_head
      (by decide : 13 ∉ getWord ∧ 32 ∉ getWord) hu.uri (by decide : 13 ∉ http11) hfields
    refine ⟨h, [], printDecimal 0, ?_, by rw [if_pos hget, hm], ht, hv,
      by rw [if_pos hget, List.append_nil, hf], decimal_printDecimal 0, fun _ => rfl⟩
    rw [pack_text (.inl hget) h0, requestLines_eq, ← read_text h [], htext]
    simp [hget, hcrlf]
  · have hno : ¬ s.http.actionType = .get := by
      rw [hpost]
      decide
    have hall : ∀ p ∈ s.requestFields s.urlInfo ++ [(lengthName, printDecimal s.body.length)],
        HttpHead.IsField p.1 p.2 := by
      intro p hp
      rcases List.mem_append.mp hp with hp | hp
      · exact hfields p hp
      · obtain rfl := List.mem_singleton.mp hp
        exact isField_length _
    obtain ⟨h, ⟨hm, ht, hv, hf⟩, htext⟩ := exists_head
      (by decide : 13 ∉ postWord ∧ 32 ∉ postWord) hu.uri (by decide : 13 ∉ http11) hall
    refine ⟨h, s.body, printDecimal s.body.length, ?_, by rw [if_neg hno, hm], ht, hv,
      by rw [if_neg hno, hf], decimal_printDecimal _, fun hget => absurd hget hno⟩
    rw [pack_text (.inr hpost) h0, requestLines_eq, ← read_text h s.body, htext]
    simp [hno, hcrlf, fieldLine, length_body (hbody hpost)]

/-! ## The room for a request -/

/-- The lines of the fields that the application has added. -/
def kvLines (s : HttpSession) : List UInt8 := s.usedKv.flatMap fun kv => fieldLine kv.key kv.value

end HttpSession

/-- Host and path are no longer than `http_urlParse` leaves them, and the port is a `uint32`. -/
structure UriInfo.Short (u : UriInfo) : Prop where
  parts : (u.host.getD []).length + (u.uri.getD []).length ≤ httpUrlMaxLen - 6
  port : u.port < 4294967296

namespace HttpSession

theorem length_portText_le {u : UriInfo} (hu : u.port < 4294967296) : (portText u).length ≤ 11 := by
  unfold portText
  split
  · rw [List.length_cons]
    exact Nat.succ_le_succ (length_printDecimal_le (by decide) (Nat.lt_trans hu (by decide)))
  · exact Nat.zero_le _

theorem length_contentTypeValue_le {contentType : HttpContentType} {v : List UInt8}
    (h : contentTypeValue contentType = some v) : v.length ≤ 57 := by
  cases contentType <;> first | cases h; decide | exact absurd h (by simp [contentTypeValue])

theorem length_requestLines_le {s : HttpSession} (hu : s.urlInfo.Short) :
    s.requestLines.length ≤ 1150 + s.kvLines.length := by
  have hport := length_portText_le hu.port
  have hparts := hu.parts
  have hword : (if s.http.actionType = .get then getWord else postWord).length ≤ 4 := by
    split <;> decide
  have hhttp : http11.length = 8 := rfl
  have hcrlf : crlf.length = 2 := rfl
  have hhost : hostName.length = 4 := rfl
  have hconnection : (fieldLine connectionName keepAlive).length = 24 := rfl
  have hmax : httpUrlMaxLen = 1024 := rfl
  have hname : contentTypeName.length = 12 := rfl
  unfold requestLines kvLines
  cases hv : contentTypeValue s.contentType with
  | none =>
      simp only [List.length_append, List.length_cons, List.length_nil, hhttp, hcrlf, hhost,
        hconnection]
      omega
  | some v =>
      have hvalue := length_contentTypeValue_le hv
      have htype : (fieldLine contentTypeName v).length ≤ 73 := by
        simp only [fieldLine, List.length_append, List.length_cons, List.length_nil, hname, hcrlf]
        omega
      simp only [List.length_append, List.length_cons, List.length_nil, hhttp, hcrlf, hhost,
        hconnection]
      omega

/-- **There is room for the text** and the byte behind it, if the application adds no more than
244 bytes and the size of the buffer fits 32 bits. -/
theorem pack_fits {s : HttpSession} (hact : s.IsRequest) (h0 : s.reqHeader = 0)
    (hu : s.urlInfo.Short) (hkv : s.kvLines.length ≤ 244) (hsum : s.txBufSum < 4294967296) :
    s.httpConstructRequestPack.pHttpTxBuf.length < s.txBufSize := by
  have hlines := length_requestLines_le hu
  have hcrlf : crlf.length = 2 := rfl
  have hmax : httpDefHeadMaxSize = 1424 := rfl
  rw [pack_text hact h0, txBufSize, Nat.mod_eq_of_lt hsum]
  unfold txBufSum at hsum ⊢
  rcases hact with hget | hpost
  · simp only [hget, if_true, List.length_append, List.length_nil, hcrlf, hmax]
    omega
  · have hno : ¬ s.http.actionType = .get := by
      rw [hpost]
      decide
    have hbody : s.body.length ≤ s.http.bodySize := by
      unfold body
      split
      · exact Nat.le_of_eq (Mem.length_slice _ _ _)
      · exact Nat.zero_le _
    have hlength : (fieldLine lengthName (printDecimal s.http.bodySize)).length ≤ 28 := by
      rw [if_neg hno] at hsum
      have hsize : s.http.bodySize < 4294967296 := by omega
      have hnum := length_printDecimal_le (k := 10) (by decide) (Nat.lt_trans hsize (by decide))
      have hname : lengthName.length = 14 := rfl
      simp only [fieldLine, List.length_append, List.length_cons, List.length_nil, hname, hcrlf]
      omega
    simp only [if_neg hno, List.length_append, hcrlf, hmax]
    omega

end HttpSession

/-! ### The parts of a URL -/

theorem length_dropDigits_le (base : Nat) :
    ∀ s : List UInt8, (dropDigits base s).length ≤ s.length
  | [] => Nat.le_refl _
  | b :: s => by
      unfold dropDigits
      split
      · split
        · exact Nat.le_succ_of_le (length_dropDigits_le base s)
        · exact Nat.le_refl _
      · exact Nat.le_refl _

theorem length_numberEnd_le (base : Nat) (s : List UInt8) :
    (numberEnd base s).length ≤ s.length := by
  have hstring : (cString s).length ≤ s.length := (List.takeWhile_sublist _).length_le
  have hspace := (List.dropWhile_sublist isSpace (l := cString s)).length_le
  have hsign (l : List UInt8) : (sign l).2.length ≤ l.length := by
    cases l with
    | nil => exact Nat.le_refl _
    | cons b l =>
        show (if b = 45 then (true, l) else if b = 43 then (false, l) else (false, b :: l)).2.length
          ≤ l.length + 1
        split
        · exact Nat.le_succ _
        · split
          · exact Nat.le_succ _
          · exact Nat.le_refl _
  have hprefix (l : List UInt8) : (skipHexPrefix base l).length ≤ l.length := by
    unfold skipHexPrefix
    split
    · split
      · simp only [List.length_cons]
        omega
      · exact Nat.le_refl _
    · exact Nat.le_refl _
  unfold numberEnd
  dsimp only
  split
  · exact hstring
  · have hdigits := length_dropDigits_le base
      (skipHexPrefix base (sign ((cString s).dropWhile isSpace)).2)
    have h1 := hprefix (sign ((cString s).dropWhile isSpace)).2
    have h2 := hsign ((cString s).dropWhile isSpace)
    omega

/-- The parts are not longer than what is split. -/
theorem short_splitUrl {srcptr : List UInt8} (h : srcptr.length + 7 ≤ httpUrlMaxLen)
    (u : UriInfo) : (splitUrl srcptr u).Short := by
  have hmax : httpUrlMaxLen = 1024 := rfl
  unfold splitUrl
  split
  · next i hi =>
    have hlt : i < (cString srcptr).length := (List.findIdx?_eq_some_iff_getElem.mp hi).1
    have hstring : (cString srcptr).length ≤ srcptr.length := (List.takeWhile_sublist _).length_le
    have hend := length_numberEnd_le 10 (srcptr.drop (i + 1))
    rw [List.length_drop] at hend
    refine ⟨?_, ?_⟩
    · show (srcptr.take i).length + (if (strchr (numberEnd 10 (srcptr.drop (i + 1))) 47).isSome then
        numberEnd 10 (srcptr.drop (i + 1)) else [47]).length ≤ httpUrlMaxLen - 6
      rw [List.length_take]
      split
      · omega
      · simp only [List.length_singleton]
        omega
    · show (strtol 10 (srcptr.drop (i + 1)) % 4294967296).toNat < 4294967296
      omega
  · have hport : (if u.isHttps then httpsDefaultPort else httpDefaultPort) < 4294967296 := by
      split <;> decide
    dsimp only
    split
    · next i _ =>
      refine ⟨?_, hport⟩
      show (srcptr.take i).length + (srcptr.drop i).length ≤ httpUrlMaxLen - 6
      rw [List.length_take, List.length_drop]
      omega
    · refine ⟨?_, hport⟩
      show srcptr.length + 1 ≤ httpUrlMaxLen - 6
      omega

/-- What `http_urlParse` leaves in the parts: those of the URL, if it returns 0, and otherwise the
ones that were there. -/
theorem httpUrlParse_parts (pUrl : List UInt8) (p : UrlParser) :
    (httpUrlParse ⟨true, true, true⟩ (some pUrl) p).2.urlInfo.Short ∨
      (httpUrlParse ⟨true, true, true⟩ (some pUrl) p).1 ≠ 0 ∧ (p.urlInfo.Short →
        (httpUrlParse ⟨true, true, true⟩ (some pUrl) p).2.urlInfo.Short) := by
  have hinit (p : UrlParser) (hp : p.urlInfo.Short) :
      (if p.isHttpInited then p else httpInit p).urlInfo.Short := by
    split
    · exact hp
    · exact ⟨Nat.zero_le _, (by decide : 80 < 4294967296)⟩
  have hmax : httpUrlMaxLen = 1024 := rfl
  have hfails {err : Nat} (he : err ≠ 0) {q : UrlParser} (hq : p.urlInfo.Short → q.urlInfo.Short) :
      (urlFails err q).2.urlInfo.Short ∨ (urlFails err q).1 ≠ 0 ∧
        (p.urlInfo.Short → (urlFails err q).2.urlInfo.Short) := .inr ⟨he, hq⟩
  have hscheme {scheme : List UInt8} (hlen : 7 ≤ scheme.length)
      (hurl : (cString pUrl).length ≤ httpUrlMaxLen) (https : Bool) (q : UrlParser) :
      (urlBehindScheme ⟨true, true, true⟩ https ((cString pUrl).drop scheme.length)
        q).2.urlInfo.Short :=
    short_splitUrl (by rw [List.length_drop]; omega) _
  unfold httpUrlParse
  dsimp only
  split
  · exact hfails (by decide) id
  · next hlen =>
    rw [not_or, not_lt] at hlen
    rw [if_neg (by decide : ¬ true = false)]
    split
    · exact .inl (hscheme (by decide) hlen.2 _ _)
    · split
      · exact .inl (hscheme (by decide) hlen.2 _ _)
      · exact hfails (by decide) fun hp => ⟨(hinit p hp).parts, (hinit p hp).port⟩

theorem ParsedFrom.short {location : List UInt8} {u : UriInfo} (h : ParsedFrom location u) :
    u.Short := by
  obtain ⟨p, hret, rfl⟩ := h
  rcases httpUrlParse_parts location p with hshort | ⟨hno, -⟩
  · exact hshort
  · exact absurd hret hno

theorem UrlFrom.short {u u' : UriInfo} (h : UrlFrom u u') (hu : u.Short) : u'.Short := by
  induction h with
  | same => exact hu
  | @parsed p pUrl _ ih =>
      rcases httpUrlParse_parts pUrl p with hshort | ⟨-, hkeep⟩
      · exact hshort
      · exact hkeep ih

/-! ## Every sequence of calls -/

/-- The client when a request begins. -/
def HttpCall.begun : HttpCall → HttpSession → HttpSession
  | .get pHeaderStr _, s => s.getBegun pHeaderStr
  | .post pData _, s => s.postBegun pData
  | _, s => s

/-- What is added to the fields is a field. -/
def HttpCall.GivesField : HttpCall → Prop
  | .addHeaderKv key value => cString key ≠ [] → HttpHead.IsField (cString key) (cString value)
  | _ => True

instance (c : HttpCall) : Decidable c.GivesField :=
  match c with
  | .addHeaderKv key value =>
      inferInstanceAs
        (Decidable (cString key ≠ [] → HttpHead.IsField (cString key) (cString value)))
  | .init | .urlParse _ | .reqHeaderSet _ | .contentTypeSet _ | .stateTypeSet _ | .clearStatus
  | .get _ _ | .post _ _ | .readContent _ => isTrue trivial

namespace HttpSession

/-- What a request to a URL begins with, and its texts. -/
theorem requests_exec {c : HttpCall} {s s' : HttpSession} (hc : c.isRequest = true)
    (hinit : s.isHttpInited = true) (h : execHttp c s = some s') :
    Requests (c.begun s).IsText s s' := by
  cases c with
  | get pHeaderStr hops => exact httpGet_requests hinit h
  | post pData hops => exact httpPost_requests hinit h
  | _ => exact absurd hc Bool.false_ne_true

theorem Requests.mono {text text' : UriInfo → List UInt8 → Prop} {G : UriInfo → Prop}
    (hgood : ∀ location u, ParsedFrom location u → G u)
    (hmono : ∀ u t, G u → text u t → text' u t) {s s' : HttpSession} (hu : G s.urlInfo)
    (h : Requests text s s') : Requests text' s s' := by
  rcases h with hrefused | ⟨outs, hout, hchain, hrest⟩
  · exact .inl hrefused
  · exact .inr ⟨outs, hout, hchain.mono hgood hmono hu, hrest⟩

theorem Requests.kept {text : UriInfo → List UInt8 → Prop} {s s' : HttpSession}
    (h : Requests text s s') : Kept s s' := by
  rcases h with ⟨-, -, -, hkept⟩ | ⟨outs, -, -, -, hkept⟩
  · exact hkept
  · exact hkept

/-- A call keeps the fields and the URL, or forgets them, or adds a field. -/
theorem settings_exec {c : HttpCall} {s s' : HttpSession} (hinit : s.isHttpInited = true)
    (h : execHttp c s = some s') :
    Kept s s' ∨
      (s'.reqHeaderKv = Vector.replicate httpHeaderKvMax ⟨[], []⟩ ∧
        s'.urlInfo = ⟨none, none, none, 80, false⟩) ∨
      ∃ key value, ∃ hi : s.usedKv.length < httpHeaderKvMax, c = .addHeaderKv key value ∧
        s'.reqHeaderKv = s.reqHeaderKv.set s.usedKv.length ⟨cString key, cString value⟩ hi ∧
        s'.urlInfo = s.urlInfo := by
  cases c with
  | init =>
      obtain rfl := Option.some.inj h
      exact .inr (.inl ⟨rfl, rfl⟩)
  | urlParse pUrl =>
      obtain rfl := Option.some.inj h
      rw [parseUrl_eq hinit]
      exact .inl ⟨rfl, .parsed pUrl .same⟩
  | addHeaderKv key value =>
      obtain ⟨⟨ret, s₁⟩, hadd, rfl⟩ := Option.map_eq_some_iff.mp h
      unfold httpAddHeaderKv at hadd
      split at hadd
      · obtain ⟨-, rfl⟩ := Prod.mk.inj (Option.some.inj hadd)
        exact .inl ⟨rfl, .same⟩
      · split at hadd
        · next hi =>
          obtain ⟨-, rfl⟩ := Prod.mk.inj (Option.some.inj hadd)
          exact .inr (.inr ⟨key, value, hi, rfl, rfl, rfl⟩)
        · exact absurd hadd (by simp)
  | reqHeaderSet reqHeader =>
      obtain rfl := Option.some.inj h
      exact .inl ⟨rfl, .same⟩
  | contentTypeSet contentType =>
      obtain rfl := Option.some.inj h
      exact .inl ⟨rfl, .same⟩
  | stateTypeSet stateType =>
      obtain rfl := Option.some.inj h
      exact .inl ⟨rfl, .same⟩
  | clearStatus =>
      obtain rfl := Option.some.inj h
      exact .inl ⟨rfl, .same⟩
  | get pHeaderStr hops => exact .inl (httpGet_requests hinit h).kept
  | post pData hops => exact .inl (httpPost_requests hinit h).kept
  | readContent dataLen =>
      obtain ⟨⟨r, s₁⟩, hread, rfl⟩ := Option.map_eq_some_iff.mp h
      obtain ⟨r, hr, heq⟩ := Option.map_eq_some_iff.mp hread
      obtain ⟨rfl, rfl⟩ := Prod.mk.inj heq
      exact .inl ⟨rfl, .same⟩

/-- The URL stays as short. -/
theorem short_exec {c : HttpCall} {s s' : HttpSession} (hinit : s.isHttpInited = true)
    (hu : s.urlInfo.Short) (h : execHttp c s = some s') : s'.urlInfo.Short := by
  rcases settings_exec hinit h with hkept | ⟨-, hcleared⟩ | ⟨_, _, _, _, -, hsame⟩
  · exact hkept.2.short hu
  · rw [hcleared]
    exact ⟨Nat.zero_le _, (by decide : 80 < 4294967296)⟩
  · rw [hsame]
    exact hu

/-- The entries with a key are fields. -/
def HasFields (s : HttpSession) : Prop := ∀ kv ∈ s.reqHeaderKv.toList, kv.key ≠ [] → kv.IsField

theorem hasFields_of_none {s : HttpSession}
    (h : s.reqHeaderKv = Vector.replicate httpHeaderKvMax ⟨[], []⟩) : s.HasFields := by
  intro kv hmem hne
  rw [h, Vector.toList_replicate] at hmem
  obtain rfl := List.eq_of_mem_replicate hmem
  exact absurd rfl hne

theorem hasFields_exec {c : HttpCall} {s s' : HttpSession} (hinit : s.isHttpInited = true)
    (hfields : s.HasFields) (hgives : c.GivesField) (h : execHttp c s = some s') :
    s'.HasFields := by
  rcases settings_exec hinit h with hkept | ⟨hcleared, -⟩ | ⟨key, value, hi, rfl, hset, -⟩
  · rw [HasFields, hkept.1]
    exact hfields
  · exact hasFields_of_none hcleared
  · intro kv hmem hne
    rw [hset, Vector.toList_set] at hmem
    rcases List.mem_or_eq_of_mem_set hmem with hmem | rfl
    · exact hfields kv hmem hne
    · exact hgives hne

theorem key_ne_of_usedKv {s : HttpSession} {kv : HttpHeaderKv} (h : kv ∈ s.usedKv) :
    kv.key ≠ [] := by
  have hkey := List.mem_takeWhile_imp h
  exact of_decide_eq_true hkey

theorem HasFields.used {s : HttpSession} (h : s.HasFields) : ∀ kv ∈ s.usedKv, kv.IsField :=
  fun kv hmem => h kv ((List.takeWhile_sublist _).subset hmem) (key_ne_of_usedKv hmem)

/-- What a request begins with. -/
theorem begun_request {c : HttpCall} (hc : c.isRequest = true) (s : HttpSession) :
    (c.begun s).IsRequest ∧ (c.begun s).reqHeader = s.reqHeader ∧
      (c.begun s).reqHeaderKv = s.reqHeaderKv ∧
      ((c.begun s).http.actionType = .post → (c.begun s).http.pBody.isSome) := by
  cases c with
  | get pHeaderStr hops => exact ⟨.inl rfl, rfl, rfl, fun hpost => HttpActionType.noConfusion hpost⟩
  | post pData hops => exact ⟨.inr rfl, rfl, rfl, fun _ => rfl⟩
  | _ => exact absurd hc Bool.false_ne_true

/-- A text of a request says what the request means. -/
theorem IsText.says {s : HttpSession} {u : UriInfo} {t : List UInt8} (h : s.IsText u t)
    (hact : s.IsRequest) (h0 : s.reqHeader = 0)
    (hbody : s.http.actionType = .post → s.http.pBody.isSome) (hfields : s.HasFields)
    (hu : u.OnLines) : s.Says u t := by
  obtain ⟨s', hsame, rfl, rfl⟩ := h
  have hact' : s'.IsRequest := by
    rw [IsRequest, hsame.actionType]
    exact hact
  have hkv : ∀ kv ∈ s'.usedKv, kv.IsField := by
    refine HasFields.used ?_
    rw [HasFields, hsame.reqHeaderKv]
    exact hfields
  have hsays := pack_says hact' (hsame.reqHeader.trans h0)
    (fun hpost => hsame.pBody (hbody (hsame.actionType.symm.trans hpost))) hkv hu
  have hf : s'.requestFields = s.requestFields := by
    funext u
    rw [requestFields, requestFields, hsame.contentType, usedKv, usedKv, hsame.reqHeaderKv]
  rwa [Says, hsame.actionType, hf] at hsays

/-- And there is room for it. -/
theorem IsText.fits {s : HttpSession} {u : UriInfo} {t : List UInt8} (h : s.IsText u t)
    (hact : s.IsRequest) (h0 : s.reqHeader = 0) (hkv : s.kvLines.length ≤ 244) (hu : u.Short) :
    ∃ s', SameRequest s s' ∧ s'.urlInfo = u ∧ s'.httpConstructRequestPack.pHttpTxBuf = t ∧
      (s'.txBufSum < 4294967296 → t.length < s'.txBufSize) := by
  obtain ⟨s', hsame, rfl, rfl⟩ := h
  refine ⟨s', hsame, rfl, rfl, fun hsum => ?_⟩
  have hact' : s'.IsRequest := by
    rw [IsRequest, hsame.actionType]
    exact hact
  have hkv' : s'.kvLines.length ≤ 244 := by
    rw [kvLines, usedKv, hsame.reqHeaderKv]
    exact hkv
  exact pack_fits hact' (hsame.reqHeader.trans h0) hu hkv' hsum

end HttpSession

section Runs

open HttpSession

variable {s s' : HttpSession} {l : List (Run.Step HttpCall HttpSession)}

/-- **Every request says what it means.**  Where the application adds no field that cannot be
read, every text that a request in a run sends to a URL, at once or after redirections, is a head
with the path, the host and the fields, and behind it what is posted; as long as the URL stays
on its lines.  Whether there is room for the text is another question (`requests_fit`). -/
theorem requests_read (hinit : s.isHttpInited = true) (hfields : s.HasFields)
    (hr : Run.Runs execHttp s l s') (hgives : ∀ e ∈ l, e.act.GivesField) :
    ∀ e ∈ l, e.act.isRequest = true → e.pre.reqHeader = 0 →
      Requests (fun u t => u.OnLines → (e.act.begun e.pre).Says u t) e.pre e.post := by
  obtain ⟨-, hsteps⟩ := hr.invariant (I := fun s => s.isHttpInited = true ∧ s.HasFields)
    (P := fun e => e.act.GivesField) ⟨hinit, hfields⟩
    (fun y a z hy he ha =>
      ⟨(callDoes_exec hy.1 he).choose_spec.inited, hasFields_exec hy.1 hy.2 ha he⟩)
    hgives
  intro e he hc h0
  obtain ⟨⟨hinit', hfields'⟩, hexec⟩ := hsteps e he
  obtain ⟨hact, hreq, hkv, hbody⟩ := begun_request hc e.pre
  refine (requests_exec hc hinit' hexec).mono (G := fun _ => True) (fun _ _ _ => trivial)
    (fun u t _ ht hu => ?_) trivial
  refine ht.says hact (hreq.trans h0) hbody ?_ hu
  rw [HasFields, hkv]
  exact hfields'

theorem redirectedGet_read :
    ∃ l s', Run.Runs execHttp freshSession l s' ∧
      ∃ e ∈ l, (e.act.isRequest = true ∧ e.pre.reqHeader = 0 ∧ e.pre.usedKv.length = 1) ∧
        HttpSession.Requests (fun u t => u.OnLines → (e.act.begun e.pre).Says u t)
          e.pre e.post := by
  obtain ⟨l, s', hr, htest⟩ : ∃ l s', Run.Runs execHttp freshSession l s' ∧
      decide ((∀ e ∈ l, e.act.GivesField) ∧ ∃ e ∈ l, e.act.isRequest = true ∧
        e.pre.reqHeader = 0 ∧ e.pre.usedKv.length = 1) = true :=
    Run.Runs.of_trace_test (l := redirectedGet)
      (q := fun (l : List (Run.Step HttpCall HttpSession)) _ =>
        decide ((∀ e ∈ l, e.act.GivesField) ∧ ∃ e ∈ l, e.act.isRequest = true ∧
          e.pre.reqHeader = 0 ∧ e.pre.usedKv.length = 1)) (by decide +kernel)
  obtain ⟨hgives, e, he, hc, h0, hkv⟩ := of_decide_eq_true htest
  have hfresh : freshSession.HasFields := hasFields_of_none rfl
  exact ⟨l, s', hr, e, he, ⟨hc, h0, hkv⟩, requests_read rfl hfresh hr hgives e he hc h0⟩

/-- **No request is longer than its buffer**, where the fields that the application has added are
not longer than 244 bytes, and the size of the buffer, with all that is posted, fits 32 bits. -/
theorem requests_fit (hinit : s.isHttpInited = true) (hu : s.urlInfo.Short)
    (hr : Run.Runs execHttp s l s') :
    ∀ e ∈ l, e.act.isRequest = true → e.pre.reqHeader = 0 → e.pre.kvLines.length ≤ 244 →
      Requests (fun u t => ∃ s₁, SameRequest (e.act.begun e.pre) s₁ ∧ s₁.urlInfo = u ∧
        s₁.httpConstructRequestPack.pHttpTxBuf = t ∧
        (s₁.txBufSum < 4294967296 → t.length < s₁.txBufSize)) e.pre e.post := by
  obtain ⟨-, hsteps⟩ := hr.invariant (I := fun s => s.isHttpInited = true ∧ s.urlInfo.Short)
    (P := fun _ => True) ⟨hinit, hu⟩
    (fun y a z hy he _ => ⟨(callDoes_exec hy.1 he).choose_spec.inited, short_exec hy.1 hy.2 he⟩)
    fun _ _ => trivial
  intro e he hc h0 hlines
  obtain ⟨⟨hinit', hu'⟩, hexec⟩ := hsteps e he
  obtain ⟨hact, hreq, hkv, -⟩ := begun_request hc e.pre
  refine (requests_exec hc hinit' hexec).mono (G := UriInfo.Short)
    (fun _ _ hparsed => hparsed.short) (fun u t hu ht => ht.fits hact (hreq.trans h0) ?_ hu) hu'
  rw [kvLines, usedKv, hkv]
  exact hlines

theorem redirectedGet_fits :
    ∃ l s', Run.Runs execHttp freshSession l s' ∧
      ∃ e ∈ l, (e.act.isRequest = true ∧ e.pre.reqHeader = 0 ∧ e.pre.usedKv.length = 1) ∧
        HttpSession.Requests (fun u t => ∃ s₁, SameRequest (e.act.begun e.pre) s₁ ∧
          s₁.urlInfo = u ∧ s₁.httpConstructRequestPack.pHttpTxBuf = t ∧
          (s₁.txBufSum < 4294967296 → t.length < s₁.txBufSize)) e.pre e.post := by
  obtain ⟨l, s', hr, htest⟩ : ∃ l s', Run.Runs execHttp freshSession l s' ∧
      decide (∃ e ∈ l, (e.act.isRequest = true ∧ e.pre.reqHeader = 0 ∧
        e.pre.usedKv.length = 1) ∧ e.pre.kvLines.length ≤ 244) = true :=
    Run.Runs.of_trace_test (l := redirectedGet)
      (q := fun (l : List (Run.Step HttpCall HttpSession)) _ =>
        decide (∃ e ∈ l, (e.act.isRequest = true ∧ e.pre.reqHeader = 0 ∧
          e.pre.usedKv.length = 1) ∧ e.pre.kvLines.length ≤ 244)) (by decide +kernel)
  obtain ⟨e, he, hrequest, hkv⟩ := of_decide_eq_true htest
  have hfresh : freshSession.urlInfo.Short := ⟨Nat.zero_le _, by decide⟩
  exact ⟨l, s', hr, e, he, hrequest,
    requests_fit rfl hfresh hr e he hrequest.1 hrequest.2.1 hkv⟩

end Runs

end IntercomSalve
