/-
# `UrlParse` — the URL of the upgrade, taken apart (`http_urlParse`)

`http_urlParse` copies the URL, takes the scheme off it and looks for the first `:` in what
follows.  If there is one, the host stands before it and the port behind it; the rest is the
path.  The buffers it fills are zeroed first, so each holds the string that is copied into it.

The `:` need not belong to the port.  Where no port is given and the path has a `:`, the host
becomes everything before that, and the port whatever stands behind it (`httpUrlParse_iff`).
-/
import IntercomSalve.HttpClient

namespace IntercomSalve

open CString

/-! ## The parser -/

/-- `URI_INFO_S`; a pointer that is not `NULL` is the string it points to. -/
structure UriInfo where
  url : Option (List UInt8)
  uri : Option (List UInt8)
  host : Option (List UInt8)
  port : Nat
  isHttps : Bool
  deriving DecidableEq

/-- `urlInfo` and the other variables that `http_urlParse` uses. -/
structure UrlParser where
  isHttpInited : Bool
  httpErrCode : Nat
  stateType : HttpStateType
  urlInfo : UriInfo
  deriving DecidableEq

/-- Which of the three buffers `malloc` gives. -/
structure UrlBuffers where
  url : Bool
  host : Bool
  uri : Bool
  deriving DecidableEq

/-- `HTTP_URL_MAX_LEN`. -/
def httpUrlMaxLen : Nat := 1024
/-- `HTTP_DEFAULT_PORT`. -/
def httpDefaultPort : Nat := 80
/-- `HTTPS_DEFAULT_PORT`. -/
def httpsDefaultPort : Nat := 443
/-- `HTTP_URL_ERR`. -/
def httpUrlErr : Nat := 711
/-- `HTTP_EMPTY_URL`. -/
def httpEmptyUrl : Nat := 712
/-- `HTTP_ALLOC_MEM_FAIL`. -/
def httpAllocMemFail : Nat := 729

/-- `http_init ()`, as far as it concerns these. -/
def httpInit (s : UrlParser) : UrlParser :=
  { s with
    isHttpInited := true
    stateType := if s.isHttpInited then s.stateType else .none
    urlInfo := ⟨none, none, none, 80, false⟩ }

/-- `"http://"`. -/
def httpScheme : List UInt8 := ascii ['h', 't', 't', 'p', ':', '/', '/']
/-- `"https://"`. -/
def httpsScheme : List UInt8 := ascii ['h', 't', 't', 'p', 's', ':', '/', '/']

/-- An error. -/
def urlFails (err : Nat) (s : UrlParser) : Nat × UrlParser := (err, { s with httpErrCode := err })

/-- `(uint32) strtol (ptr, &endptr, 10)`. -/
def readPort (ptr : List UInt8) : Nat := (strtol 10 ptr % 4294967296).toNat

/-- What stands behind the scheme is split. -/
def splitUrl (srcptr : List UInt8) (u : UriInfo) : UriInfo :=
  match strchr srcptr 58 with
  | some i =>
      let endptr := numberEnd 10 (srcptr.drop (i + 1))
      { u with
        host := some (srcptr.take i)
        port := readPort (srcptr.drop (i + 1))
        uri := some (if (strchr endptr 47).isSome then endptr else [47]) }
  | none =>
      let port := if u.isHttps then httpsDefaultPort else httpDefaultPort
      match strchr srcptr 47 with
      | some i =>
          { u with port := port, host := some (srcptr.take i), uri := some (srcptr.drop i) }
      | none => { u with port := port, host := some srcptr, uri := some [47] }

/-- Behind the scheme: the other buffers, and the split. -/
def urlBehindScheme (m : UrlBuffers) (isHttps : Bool) (srcptr : List UInt8) (s : UrlParser) :
    Nat × UrlParser :=
  let s := { s with urlInfo.isHttps := isHttps }
  if m.host = false then urlFails httpAllocMemFail { s with urlInfo.host := none }
  else if m.uri = false then
    urlFails httpAllocMemFail { s with urlInfo.host := some [], urlInfo.uri := none }
  else (0, { s with urlInfo := splitUrl srcptr s.urlInfo, stateType := .urlReady })

/-- `http_urlParse (pUrl)`: what it returns, and the variables afterwards. -/
def httpUrlParse (m : UrlBuffers) (pUrl : Option (List UInt8)) (s : UrlParser) :
    Nat × UrlParser :=
  match pUrl with
  | none => urlFails httpEmptyUrl s
  | some pUrl =>
      let url := cString pUrl
      if url.length = 0 ∨ httpUrlMaxLen < url.length then urlFails httpEmptyUrl s
      else
        let s := if s.isHttpInited then s else httpInit s
        let s := { s with httpErrCode := 0 }
        if m.url = false then urlFails httpAllocMemFail { s with urlInfo.url := none }
        else
          let s := { s with urlInfo.url := some url }
          if startsWithNoCase url httpScheme then
            urlBehindScheme m false (url.drop httpScheme.length) s
          else if startsWithNoCase url httpsScheme then
            urlBehindScheme m true (url.drop httpsScheme.length) s
          else urlFails httpUrlErr s

/-! ## URLs -/

/-- `scheme://host[:port][path]`. -/
structure Url where
  scheme : List UInt8
  host : List UInt8
  port : Option (List UInt8)
  path : List UInt8
  /-- in any letter case -/
  scheme_ok : scheme.map toLower = ascii ['h', 't', 't', 'p'] ∨
    scheme.map toLower = ascii ['h', 't', 't', 'p', 's']
  host_ok : (0 : UInt8) ∉ host ∧ 58 ∉ host ∧ 47 ∉ host
  port_ok : ∀ ds ∈ port, ds ≠ [] ∧ (∀ d ∈ ds, digits 10 [d] ≠ []) ∧ decimal ds ≤ 65535
  path_ok : (0 : UInt8) ∉ path ∧ (path = [] ∨ ∃ p, path = 47 :: p)

/-- `:port`. -/
def Url.portText (u : Url) : List UInt8 :=
  match u.port with
  | some ds => 58 :: ds
  | none => []

/-- What stands behind the scheme. -/
def Url.rest (u : Url) : List UInt8 := u.host ++ (u.portText ++ u.path)

/-- The text of a URL. -/
def Url.text (u : Url) : List UInt8 := u.scheme ++ (ascii [':', '/', '/'] ++ u.rest)

/-- The scheme is `https`. -/
def Url.isHttps (u : Url) : Bool := u.scheme.map toLower = ascii ['h', 't', 't', 'p', 's']

/-- The port, or the one that goes with the scheme. -/
def Url.portOf (u : Url) : Nat :=
  match u.port with
  | some ds => decimal ds
  | none => if u.isHttps then 443 else 80

/-- The path, or `/`. -/
def Url.uriOf (u : Url) : List UInt8 := if u.path = [] then [47] else u.path

/-- The URL has been taken apart. -/
structure Url.TakenApart (u : Url) (r : Nat × UrlParser) : Prop where
  ret : r.1 = 0
  isHttps : r.2.urlInfo.isHttps = u.isHttps
  host : r.2.urlInfo.host = some u.host
  port : r.2.urlInfo.port = u.portOf
  uri : r.2.urlInfo.uri = some u.uriOf

/-! ## The scheme -/

theorem Url.scheme_noNul (u : Url) : (0 : UInt8) ∉ u.scheme := by
  intro h0
  have hmem : toLower 0 ∈ u.scheme.map toLower := List.mem_map_of_mem h0
  rcases u.scheme_ok with h | h <;> rw [h] at hmem <;> exact absurd hmem (by decide)

theorem Url.rest_noNul (u : Url) : (0 : UInt8) ∉ u.rest := by
  have hport : (0 : UInt8) ∉ u.portText := by
    unfold Url.portText
    split
    · next ds hds =>
        rw [List.mem_cons]
        rintro (h | h)
        · exact absurd h (by decide)
        · exact (u.port_ok ds hds).2.1 0 h rfl
    · exact List.not_mem_nil
  unfold Url.rest
  rw [List.mem_append, List.mem_append]
  rintro (h | h | h)
  · exact u.host_ok.1 h
  · exact hport h
  · exact u.path_ok.1 h

theorem Url.cString_text (u : Url) : cString u.text = u.text := by
  refine cString_of_noNul ?_
  unfold Url.text
  rw [List.mem_append, List.mem_append]
  rintro (h | h | h)
  · exact u.scheme_noNul h
  · exact absurd h (by decide)
  · exact u.rest_noNul h

/-- Ahead of `n` characters of the rest, the text begins with the scheme in lower case. -/
theorem Url.take_text (u : Url) {lit : List UInt8} (hlit : u.scheme.map toLower = lit) (n : Nat)
    (hn : n ≤ 3) :
    (u.text.take (lit.length + n)).map toLower = lit ++ (ascii [':', '/', '/']).take n := by
  have hlen : lit.length = u.scheme.length := by rw [← hlit, List.length_map]
  have hlower : (ascii [':', '/', '/']).map toLower = ascii [':', '/', '/'] := by decide
  have hcolon : (ascii [':', '/', '/']).length = 3 := rfl
  rw [Url.text, hlen, List.take_length_add_append, List.map_append, hlit,
    List.take_append_of_le_length (by rw [hcolon]; exact hn), List.map_take, hlower]

theorem Url.drop_text (u : Url) {lit : List UInt8} (hlit : u.scheme.map toLower = lit) :
    u.text.drop (lit.length + 3) = u.rest := by
  have hlen : lit.length = u.scheme.length := by rw [← hlit, List.length_map]
  rw [Url.text, hlen, ← List.append_assoc]
  exact List.drop_left' (by rw [List.length_append]; rfl)

/-- Which of the two schemes is found, and what stands behind it. -/
theorem Url.scheme_found (u : Url) :
    (u.isHttps = false ∧ startsWithNoCase u.text httpScheme = true ∧
      u.text.drop httpScheme.length = u.rest) ∨
    (u.isHttps = true ∧ startsWithNoCase u.text httpScheme = false ∧
      startsWithNoCase u.text httpsScheme = true ∧
      u.text.drop httpsScheme.length = u.rest) := by
  unfold startsWithNoCase
  rw [u.cString_text]
  rcases u.scheme_ok with h | h
  · have htake := u.take_text h 3 (Nat.le_refl 3)
    have hdrop := u.drop_text h
    refine .inl ⟨?_, ?_, hdrop⟩
    · unfold Url.isHttps
      rw [h]
      decide
    · show ((u.text.take ((ascii ['h', 't', 't', 'p']).length + 3)).map toLower == _) = true
      rw [htake]
      decide
  · have htake := u.take_text h 3 (Nat.le_refl 3)
    have hshort := u.take_text h 2 (by decide)
    have hdrop := u.drop_text h
    refine .inr ⟨?_, ?_, ?_, hdrop⟩
    · unfold Url.isHttps
      rw [h]
      decide
    · show ((u.text.take ((ascii ['h', 't', 't', 'p', 's']).length + 2)).map toLower == _) = false
      rw [hshort]
      decide
    · show ((u.text.take ((ascii ['h', 't', 't', 'p', 's']).length + 3)).map toLower == _) = true
      rw [htake]
      decide

/-! ## The split -/

theorem Url.rest_of_port (u : Url) {ds : List UInt8} (hds : u.port = some ds) :
    u.rest = u.host ++ 58 :: (ds ++ u.path) := by
  unfold Url.rest Url.portText
  rw [hds]
  rfl

theorem Url.rest_of_none (u : Url) (hnone : u.port = none) : u.rest = u.host ++ u.path := by
  unfold Url.rest Url.portText
  rw [hnone]
  rfl

/-- With a port the split is right. -/
theorem Url.split_of_port (u : Url) (info : UriInfo) {ds : List UInt8} (hds : u.port = some ds) :
    splitUrl u.rest info =
      { info with host := some u.host, port := decimal ds, uri := some u.uriOf } := by
  obtain ⟨hne, hdigits, hfit⟩ := u.port_ok ds hds
  have hstop : digits 10 u.path = [] := by
    rcases u.path_ok.2 with h | ⟨p, h⟩ <;> rw [h] <;> rfl
  obtain ⟨hscan, hend⟩ := number_digits hne hdigits hstop u.path_ok.1
  have hcolon : strchr u.rest 58 = some u.host.length := by
    rw [u.rest_of_port hds, strchr_append u.host_ok.1 u.host_ok.2.1,
      strchr_cons_self (by decide), Option.map_some, Nat.zero_add]
  have hhost : u.rest.take u.host.length = u.host := by
    rw [u.rest_of_port hds, List.take_left]
  have hbehind : u.rest.drop (u.host.length + 1) = ds ++ u.path := by
    rw [u.rest_of_port hds, List.drop_length_add_append]
    rfl
  have hport : readPort (ds ++ u.path) = decimal ds := by
    unfold readPort strtol
    rw [hscan]
    dsimp only
    rw [if_neg Bool.false_ne_true, if_neg (by omega)]
    omega
  have huri : (if (strchr u.path 47).isSome then u.path else [47]) = u.uriOf := by
    unfold Url.uriOf
    rcases u.path_ok.2 with h | ⟨p, h⟩ <;> rw [h] <;> rfl
  unfold splitUrl
  rw [hcolon]
  dsimp only
  rw [hhost, hbehind, hend, hport, huri]

/-- Without one it is right where the path has no `:`. -/
theorem Url.split_of_none (u : Url) (info : UriInfo) (hnone : u.port = none)
    (hpath : (58 : UInt8) ∉ u.path) :
    splitUrl u.rest info =
      { info with
        host := some u.host, port := if info.isHttps then 443 else 80, uri := some u.uriOf } := by
  have hcolon : strchr u.rest 58 = none := by
    rw [u.rest_of_none hnone]
    refine strchr_eq_none ?_
    rw [List.mem_append, not_or]
    exact ⟨u.host_ok.2.1, hpath⟩
  unfold splitUrl
  rw [hcolon]
  dsimp only
  rcases u.path_ok.2 with h | ⟨p, h⟩
  · have hslash : strchr u.rest 47 = none := by
      rw [u.rest_of_none hnone, h, List.append_nil]
      exact strchr_eq_none u.host_ok.2.2
    have huri : u.uriOf = [47] := if_pos h
    rw [hslash, huri, u.rest_of_none hnone, h, List.append_nil]
    rfl
  · have hslash : strchr u.rest 47 = some u.host.length := by
      rw [u.rest_of_none hnone, strchr_append u.host_ok.1 u.host_ok.2.2, h,
        strchr_cons_self (by decide), Option.map_some, Nat.zero_add]
    have huri : u.uriOf = u.path := if_neg (by rw [h]; exact List.cons_ne_nil _ _)
    rw [hslash, huri, u.rest_of_none hnone]
    dsimp only
    rw [List.take_left, List.drop_left]
    rfl

/-- Otherwise the host goes too far. -/
theorem Url.split_wrong (u : Url) (info : UriInfo) (hnone : u.port = none)
    (hpath : (58 : UInt8) ∈ u.path) : (splitUrl u.rest info).host ≠ some u.host := by
  obtain ⟨p, hp⟩ : ∃ p, u.path = 47 :: p := by
    rcases u.path_ok.2 with h | h
    · rw [h] at hpath
      exact absurd hpath List.not_mem_nil
    · exact h
  obtain ⟨i, hi⟩ := strchr_isSome u.path_ok.1 hpath
  -- the path begins with a `/`, so its `:` is further on
  have hpos : 0 < i := by
    have hfirst : strchr u.path 58 = (strchr p 58).map (· + 1) := by
      rw [hp]
      exact strchr_append (s := [47]) (by decide) (by decide)
    rw [hi] at hfirst
    obtain ⟨j, -, hj⟩ := Option.map_eq_some_iff.mp hfirst.symm
    omega
  have hcolon : strchr u.rest 58 = some (i + u.host.length) := by
    rw [u.rest_of_none hnone, strchr_append u.host_ok.1 u.host_ok.2.1, hi, Option.map_some]
  unfold splitUrl
  rw [hcolon]
  intro hhost
  have htake : u.rest.take (i + u.host.length) = u.host := Option.some.inj hhost
  have hlen := congrArg List.length htake
  rw [List.length_take, u.rest_of_none hnone, List.length_append, hp, List.length_cons] at hlen
  omega

/-! ## The law -/

theorem Url.text_length (u : Url) (hlen : u.text.length ≤ httpUrlMaxLen) :
    ¬ (u.text.length = 0 ∨ httpUrlMaxLen < u.text.length) := by
  have hpos : 0 < u.text.length := by
    unfold Url.text
    rw [List.length_append, List.length_append]
    show 0 < u.scheme.length + (3 + u.rest.length)
    omega
  omega

/-- Without a buffer for the URL. -/
theorem httpUrlParse_noUrl (u : Url) (hlen : u.text.length ≤ httpUrlMaxLen) {m : UrlBuffers}
    (s : UrlParser) (hurl : m.url = false) :
    (httpUrlParse m (some u.text) s).1 = httpAllocMemFail := by
  unfold httpUrlParse
  dsimp only
  rw [u.cString_text, if_neg (u.text_length hlen), if_pos hurl]
  rfl

/-- With one, the scheme is found. -/
theorem httpUrlParse_scheme (u : Url) (hlen : u.text.length ≤ httpUrlMaxLen) {m : UrlBuffers}
    (s : UrlParser) (hurl : m.url = true) :
    ∃ s', httpUrlParse m (some u.text) s = urlBehindScheme m u.isHttps u.rest s' := by
  have hne : m.url ≠ false := by
    rw [hurl]
    decide
  unfold httpUrlParse
  dsimp only
  rw [u.cString_text, if_neg (u.text_length hlen), if_neg hne]
  rcases u.scheme_found with ⟨hhttps, hfound, hrest⟩ | ⟨hhttps, hnot, hfound, hrest⟩
  · rw [if_pos hfound, hrest, hhttps]
    exact ⟨_, rfl⟩
  · rw [hnot, if_neg Bool.false_ne_true, if_pos hfound, hrest, hhttps]
    exact ⟨_, rfl⟩

/-- Behind the scheme. -/
theorem Url.takenApart_iff (u : Url) (m : UrlBuffers) (s : UrlParser) :
    u.TakenApart (urlBehindScheme m u.isHttps u.rest s) ↔
      (m.host = true ∧ m.uri = true) ∧ (u.port ≠ none ∨ (58 : UInt8) ∉ u.path) := by
  unfold urlBehindScheme
  cases hhost : m.host with
  | false =>
      refine ⟨fun h => ?_, fun h => absurd h.1.1 Bool.false_ne_true⟩
      exact absurd (show httpAllocMemFail = 0 from h.ret) (by decide)
  | true =>
      cases huri : m.uri with
      | false =>
          refine ⟨fun h => ?_, fun h => absurd h.1.2 Bool.false_ne_true⟩
          exact absurd (show httpAllocMemFail = 0 from h.ret) (by decide)
      | true =>
          show u.TakenApart (0, { s with
            urlInfo := splitUrl u.rest { s.urlInfo with isHttps := u.isHttps }
            stateType := .urlReady }) ↔ _
          cases hport : u.port with
          | some ds =>
              have hsplit := u.split_of_port { s.urlInfo with isHttps := u.isHttps } hport
              have hportOf : decimal ds = u.portOf := by
                unfold Url.portOf
                rw [hport]
              rw [hsplit]
              exact ⟨fun _ => ⟨⟨rfl, rfl⟩, .inl (Option.some_ne_none ds)⟩,
                fun _ => ⟨rfl, rfl, rfl, hportOf, rfl⟩⟩
          | none =>
              refine ⟨fun h => ⟨⟨rfl, rfl⟩, .inr fun hpath => ?_⟩, fun h => ?_⟩
              · exact u.split_wrong _ hport hpath h.host
              · have hpath : (58 : UInt8) ∉ u.path := h.2.resolve_left fun hne => hne rfl
                have hsplit := u.split_of_none { s.urlInfo with isHttps := u.isHttps } hport hpath
                have hportOf : (if u.isHttps then 443 else 80) = u.portOf := by
                  unfold Url.portOf
                  rw [hport]
                rw [hsplit]
                exact ⟨rfl, rfl, rfl, hportOf, rfl⟩

/-- **The URL of the upgrade.**  For every URL of at most 1024 characters, `http_urlParse` returns 0
and takes it apart exactly if it gets its buffers, and a port is given or the path has no `:`. -/
theorem httpUrlParse_iff (u : Url) (hlen : u.text.length ≤ httpUrlMaxLen) (m : UrlBuffers)
    (s : UrlParser) :
    u.TakenApart (httpUrlParse m (some u.text) s) ↔
      (m.url = true ∧ m.host = true ∧ m.uri = true) ∧
        (u.port ≠ none ∨ (58 : UInt8) ∉ u.path) := by
  cases hurl : m.url with
  | false =>
      have hfail := httpUrlParse_noUrl u hlen s hurl
      refine ⟨fun h => ?_, fun h => absurd h.1.1 Bool.false_ne_true⟩
      exact absurd (hfail.symm.trans h.ret) (by decide)
  | true =>
      obtain ⟨s', hs'⟩ := httpUrlParse_scheme u hlen s hurl
      rw [hs', u.takenApart_iff, and_iff_right rfl]

/-- `http://h:8080/a:b`. -/
def portUrl : Url where
  scheme := ascii ['h', 't', 't', 'p']
  host := ascii ['h']
  port := some (ascii ['8', '0', '8', '0'])
  path := ascii ['/', 'a', ':', 'b']
  scheme_ok := by decide
  host_ok := by decide
  port_ok := by
    intro ds hds
    obtain rfl := Option.some.inj hds
    have hall : ((ascii ['8', '0', '8', '0']).all fun d => decide (digits 10 [d] ≠ [])) = true := by
      decide
    exact ⟨by decide, fun d hd => of_decide_eq_true (List.all_eq_true.mp hall d hd), by decide⟩
  path_ok := ⟨by decide, .inr ⟨_, rfl⟩⟩

theorem portUrl_takenApart :
    portUrl.TakenApart (httpUrlParse ⟨true, true, true⟩ (some portUrl.text)
      ⟨true, 0, .none, ⟨none, none, none, 80, false⟩⟩) :=
  (httpUrlParse_iff portUrl (by decide) _ _).mpr ⟨⟨rfl, rfl, rfl⟩, .inl (by decide)⟩

/-- `http://h/a:b`. -/
def colonUrl : Url where
  scheme := ascii ['h', 't', 't', 'p']
  host := ascii ['h']
  port := none
  path := ascii ['/', 'a', ':', 'b']
  scheme_ok := by decide
  host_ok := by decide
  port_ok := by decide
  path_ok := ⟨by decide, .inr ⟨_, rfl⟩⟩

/-- The host becomes `h/a`. -/
theorem colonUrl_not_takenApart :
    ¬ ∀ (u : Url) (m : UrlBuffers) (s : UrlParser), u.text.length ≤ httpUrlMaxLen →
      m = ⟨true, true, true⟩ → u.TakenApart (httpUrlParse m (some u.text) s) := by
  intro h
  have hhost := (h colonUrl ⟨true, true, true⟩ ⟨true, 0, .none, ⟨none, none, none, 80, false⟩⟩
    (by decide) rfl).host
  exact absurd hhost (by decide)

end IntercomSalve
