/-
# `RequestEnds` — a request comes to an end

`http_get` and `http_post` return, however the name, the sockets and the memory fail,
however the text is taken and the response cut, provided that the outside lets every
attempt go on (`Hop.LetsGo`): among the calls that send is one that fails, or by whose
return the timer has run out, so that there are enough of them; and the line of a
location ends.  And one of the attempts must not lead to another (`Hop.Last`), for
redirections are followed without a limit.

Whether the text fits its buffer is not asked here, and eight long fields make one that
does not (`requests_fit` says when it does).
-/
import IntercomSalve.RequestText

namespace IntercomSalve

open CString HttpClient HttpSession

/-! ## Attempts that go on -/

/-- One of the calls that send fails, or the timer has run out by its return: the text may be out
before it comes to that.  And where what has been received behind a header names a location, its
line ends. -/
structure Hop.LetsGo (hop : Hop) : Prop where
  sends : ∃ c ∈ hop.sends, c.takes = none ∨ c.rspReach = true
  location : ∀ t, t <+: hop.sock.bytes → (strstr t headerEnd).isSome →
    httpParseRedirection t httpUrlMaxLen ≠ none

/-- Nothing that is received names a location. -/
def Hop.Last (hop : Hop) : Prop :=
  ∀ t, t <+: hop.sock.bytes → httpParseRedirection t httpUrlMaxLen = some none

theorem sendLoop_ends :
    ∀ (cs : List SendCall) (s : HttpSession), (∃ c ∈ cs, c.takes = none ∨ c.rspReach = true) →
      ∃ r, sendLoop cs s = some r
  | [], _, h => by
      obtain ⟨c, hc, -⟩ := h
      exact absurd hc List.not_mem_nil
  | c :: cs, s, h => by
      unfold sendLoop
      cases htakes : c.takes with
      | none => exact ⟨_, rfl⟩
      | some n =>
          dsimp only
          split
          · exact ⟨_, rfl⟩
          · next hreach =>
            split
            · exact ⟨_, rfl⟩
            · -- the timer had not run out at the first call
              refine sendLoop_ends cs _ ?_
              obtain ⟨c', hc', hends⟩ := h
              rcases List.mem_cons.mp hc' with rfl | hc'
              · rcases hends with hnone | hend
                · exact absurd (hnone.symm.trans htakes) (by simp)
                · exact absurd (show (s.http.rspReach || c'.rspReach) = true by
                    rw [hend, Bool.or_true]) hreach
              · exact ⟨c', hc', hends⟩

theorem sendRequestPack_ends {cs : List SendCall}
    (h : ∃ c ∈ cs, c.takes = none ∨ c.rspReach = true) (s : HttpSession) :
    ∃ r, s.httpSendRequestPack cs = some r := by
  unfold httpSendRequestPack
  split
  · exact ⟨_, rfl⟩
  · exact sendLoop_ends cs s h

section Attempt

variable {hop : Hop} {next : HttpSession → Option HttpSession}

/-- Behind a redirection. -/
theorem redirect_ends (hnext : hop.Last ∨ ∀ s, ∃ s', next s = some s') {t : List UInt8}
    (ht : t <+: hop.sock.bytes) (hloc : httpParseRedirection t httpUrlMaxLen ≠ none)
    (s : HttpSession) : ∃ s', s.httpRedirectRspStatus hop next t = some s' := by
  unfold httpRedirectRspStatus
  split
  · exact ⟨_, rfl⟩
  · obtain ⟨location, hlocation⟩ := Option.ne_none_iff_exists'.mp hloc
    rw [hlocation, Option.bind_some]
    cases location with
    | none => exact ⟨_, rfl⟩
    | some location =>
        dsimp only
        split
        · split
          · exact ⟨_, rfl⟩
          · rcases hnext with hlast | hnext
            · exact absurd (hlocation.symm.trans (hlast t ht)) (by simp)
            · exact hnext _
        · exact ⟨_, rfl⟩

/-- The receiver. -/
theorem receive_ends (hgo : hop.LetsGo) (hnext : hop.Last ∨ ∀ s, ∃ s', next s = some s')
    {s : HttpSession} (hst : s.http.stateType = .receiveStart)
    (hheader : s.http.receiveStatus = .header) : ∃ s', s.receiveRsp hop next = some s' := by
  obtain ⟨⟨⟨h', answer⟩, k⟩, hrun⟩ :=
    receiveRsp_ends (hop.sock.bytes.length + 1) [] s.http hop.sock (Nat.lt_succ_self _)
  have hrec : Received s.http hop.sock.bytes (h', answer) k :=
    received_of_receiveRsp (by rw [hst]; decide) (by rw [hst]; decide) _ _ _ _ _
      (.start hheader hop.sock) hrun
  unfold receiveRsp
  rw [hrun, Option.bind_some]
  cases hrec with
  | answered _ _ _ => exact ⟨_, rfl⟩
  | @redirected _ _ t _ _ _ _ _ _ hbytes hend =>
      have ht : HttpSession.received hop.sock k = t := by
        rw [HttpSession.received, ← hbytes, List.length_append, Nat.add_sub_cancel, List.take_left']
        rfl
      dsimp only
      rw [ht]
      have hpre : t <+: hop.sock.bytes := ⟨k.bytes, hbytes⟩
      exact redirect_ends hnext hpre (hgo.location t hpre hend) _

/-- From the connected socket on. -/
theorem send_ends (hgo : hop.LetsGo) (hnext : hop.Last ∨ ∀ s, ∃ s', next s = some s')
    (s : HttpSession) : ∃ s', s.httpActionSendData hop next = some s' := by
  unfold httpActionSendData
  split
  · exact ⟨_, rfl⟩
  · obtain ⟨⟨ret, s₁⟩, hsend⟩ := sendRequestPack_ends hgo.sends s.httpConstructRequestPack
    rw [hsend, Option.bind_some]
    dsimp only
    split
    · exact ⟨_, rfl⟩
    · split
      · exact receive_ends hgo hnext rfl rfl
      · exact ⟨_, rfl⟩

/-- An attempt. -/
theorem connect_ends (hgo : hop.LetsGo) (hnext : hop.Last ∨ ∀ s, ∃ s', next s = some s')
    (s : HttpSession) : ∃ r, s.httpSocketCreatAndConnect hop next = some r := by
  unfold httpSocketCreatAndConnect
  dsimp only
  split
  · exact ⟨_, rfl⟩
  · split
    · exact ⟨_, rfl⟩
    · split
      · exact ⟨_, rfl⟩
      · split
        · exact ⟨_, rfl⟩
        · split
          · exact ⟨_, rfl⟩
          · split
            · exact ⟨_, rfl⟩
            · obtain ⟨s', hs'⟩ := send_ends hgo hnext _
              exact ⟨_, congrArg (Option.map _) hs'⟩

end Attempt

/-- **The attempts end**, with the last one if not before. -/
theorem attempts_end :
    ∀ (hops : List Hop) (s : HttpSession), (∀ hop ∈ hops, hop.LetsGo) →
      (∃ hop ∈ hops, hop.Last) → ∃ s', s.httpGetOrPostReqHandle hops = some s'
  | [], _, _, hlast => by
      obtain ⟨hop, hmem, -⟩ := hlast
      exact absurd hmem List.not_mem_nil
  | hop :: hops, s, hgo, hlast => by
      have hnext : hop.Last ∨ ∀ s, ∃ s', httpGetOrPostReqHandle hops s = some s' := by
        obtain ⟨hop', hmem, hlast⟩ := hlast
        rcases List.mem_cons.mp hmem with rfl | hmem
        · exact .inl hlast
        · exact .inr fun s => attempts_end hops s
            (fun hop'' h => hgo hop'' (List.mem_cons_of_mem _ h)) ⟨hop', hmem, hlast⟩
      unfold httpGetOrPostReqHandle
      split
      · exact ⟨_, rfl⟩
      · obtain ⟨r, hr⟩ := connect_ends (hgo hop (List.mem_cons_self ..)) hnext
          { s with http.stateType := .ipGot, http.rspReach := false }
        exact ⟨_, congrArg (Option.map _) hr⟩

/-! ## The other calls -/

/-- Every pass of the loop of `http_readreceiveRsp` reads a byte at least. -/
theorem readreceiveLoop_ends (dataLen : Nat) :
    ∀ (fuel recvCnt : Nat) (h : HttpClient) (k : Sock), dataLen - recvCnt < fuel →
      ∃ r, readreceiveLoop dataLen fuel recvCnt h k = some r
  | 0, _, _, _, hlt => absurd hlt (Nat.not_lt_zero _)
  | fuel + 1, recvCnt, h, k, hlt => by
      unfold readreceiveLoop
      split
      · exact ⟨_, rfl⟩
      · next hmore =>
        split
        · exact ⟨_, rfl⟩
        · dsimp only
          split
          · split
            · exact ⟨_, rfl⟩
            · exact ⟨_, rfl⟩
            · exact ⟨_, rfl⟩
            · split <;> exact ⟨_, rfl⟩
          · next bs k' hrecv =>
            have hsize : 0 < (if httpRxBufDefaultSize < dataLen - recvCnt then httpRxBufDefaultSize
                else dataLen - recvCnt) := by
              split
              · decide
              · omega
            obtain ⟨hne, -, -⟩ := Sock.bytes_of_recv_some hsize hrecv
            have hpos := List.length_pos_iff.mpr hne
            split
            · exact ⟨_, rfl⟩
            · split
              · exact ⟨_, rfl⟩
              · exact readreceiveLoop_ends dataLen fuel _ _ k' (by omega)

theorem readContent_ends (dataLen : Nat) (s : HttpSession) :
    ∃ r, s.readContent dataLen 0 false = some r := by
  have hread : ∃ r, s.http.httpReadContentDataAndLen dataLen 0 false s.sock = some r := by
    unfold httpReadContentDataAndLen
    split
    · exact ⟨_, rfl⟩
    · dsimp only
      split
      · exact ⟨_, rfl⟩
      · split
        · exact ⟨_, rfl⟩
        · obtain ⟨r, hr⟩ := readreceiveLoop_ends _ _ _ _ _ (Nat.lt_succ_of_le (Nat.sub_le _ 0))
          exact ⟨_, congrArg (Option.map _) hr⟩
  obtain ⟨r, hr⟩ := hread
  exact ⟨_, congrArg (Option.map _) hr⟩

/-- Behind the first entry without a key there is no entry with one. -/
def Packed (s : HttpSession) : Prop := ∀ kv ∈ s.reqHeaderKv.toList.drop s.usedKv.length, kv.key = []

theorem packed_of_none {s : HttpSession}
    (h : s.reqHeaderKv = Vector.replicate httpHeaderKvMax ⟨[], []⟩) : Packed s := by
  intro kv hmem
  rw [h, Vector.toList_replicate] at hmem
  obtain rfl := List.eq_of_mem_replicate (List.mem_of_mem_drop hmem)
  rfl

/-- An entry more, at most. -/
theorem packed_set {s s' : HttpSession} (hp : Packed s) {kv : HttpHeaderKv}
    (hi : s.usedKv.length < httpHeaderKvMax)
    (hset : s'.reqHeaderKv = s.reqHeaderKv.set s.usedKv.length kv hi) :
    Packed s' ∧ s'.usedKv.length ≤ s.usedKv.length + 1 := by
  obtain ⟨n, hn⟩ : ∃ n, n = s.usedKv.length := ⟨_, rfl⟩
  have hlen : n < s.reqHeaderKv.toList.length := by
    rw [Vector.length_toList, hn]
    exact hi
  have htake : s.reqHeaderKv.toList.take n = s.usedKv := by
    rw [hn]
    exact (List.prefix_iff_eq_take.mp (List.takeWhile_prefix _)).symm
  have hlist : s'.reqHeaderKv.toList = s.usedKv ++ kv :: s.reqHeaderKv.toList.drop (n + 1) := by
    rw [hset, Vector.toList_set, ← hn, List.set_eq_take_append_cons_drop, if_pos hlen, htake]
  have hused : ∀ kv ∈ s.usedKv, decide (kv.key ≠ []) = true := fun kv hmem =>
    decide_eq_true (key_ne_of_usedKv hmem)
  have hrest : ∀ kv ∈ s.reqHeaderKv.toList.drop (n + 1), kv.key = [] := fun kv hmem =>
    hp kv (hn ▸ (List.drop_subset_drop_left _ (Nat.le_succ n)) hmem)
  have hnone : (s.reqHeaderKv.toList.drop (n + 1)).takeWhile (fun kv => kv.key ≠ []) = [] := by
    cases hdrop : s.reqHeaderKv.toList.drop (n + 1) with
    | nil => rfl
    | cons kv' l =>
        rw [hdrop] at hrest
        exact List.takeWhile_cons_of_neg (by simp [hrest kv' (List.mem_cons_self ..)])
  have hused' : s'.usedKv = s.usedKv ++ if kv.key ≠ [] then [kv] else [] := by
    rw [HttpSession.usedKv, hlist, List.takeWhile_append_of_pos hused, List.takeWhile_cons, hnone]
    by_cases hkey : kv.key = [] <;> simp [hkey]
  rw [Packed, hused', hlist]
  by_cases hkey : kv.key = []
  · rw [if_neg (not_not.mpr hkey), List.append_nil, List.drop_left]
    refine ⟨fun kv' hmem => ?_, Nat.le_succ _⟩
    rcases List.mem_cons.mp hmem with rfl | hmem
    · exact hkey
    · exact hrest kv' hmem
  · have hsplit : s.usedKv ++ kv :: s.reqHeaderKv.toList.drop (n + 1)
        = (s.usedKv ++ [kv]) ++ s.reqHeaderKv.toList.drop (n + 1) := List.append_cons _ _ _
    rw [if_pos hkey, hsplit, List.drop_left]
    exact ⟨hrest, by rw [List.length_append, List.length_singleton]⟩

/-! ## Every sequence of calls -/

/-- The attempts of a request. -/
def HttpCall.hops : HttpCall → List Hop
  | .get _ hops | .post _ hops => hops
  | _ => []

/-- The outside lets a call go on. -/
def HttpCall.LetsGo (c : HttpCall) : Prop :=
  c.isRequest = true → (∀ hop ∈ c.hops, hop.LetsGo) ∧ ∃ hop ∈ c.hops, hop.Last

/-- A field is added. -/
def HttpCall.adds : HttpCall → Bool
  | .addHeaderKv _ _ => true
  | _ => false

theorem get_ends {hops : List Hop} (hgo : ∀ hop ∈ hops, hop.LetsGo)
    (hlast : ∃ hop ∈ hops, hop.Last) (pHeaderStr : List UInt8) (s : HttpSession) :
    ∃ s', s.httpGet pHeaderStr hops = some s' := by
  unfold httpGet
  split
  · exact ⟨_, rfl⟩
  · dsimp only
    split
    · split
      · exact ⟨_, rfl⟩
      · exact attempts_end hops _ hgo hlast
    · exact attempts_end hops _ hgo hlast

theorem post_ends {hops : List Hop} (hgo : ∀ hop ∈ hops, hop.LetsGo)
    (hlast : ∃ hop ∈ hops, hop.Last) (pData : List UInt8) (s : HttpSession) :
    ∃ s', s.httpPost pData hops = some s' := by
  unfold httpPost
  split
  · exact ⟨_, rfl⟩
  · split
    · exact ⟨_, rfl⟩
    · exact attempts_end hops _ hgo hlast

/-- **A call returns**; to add a field there must be an entry left. -/
theorem exec_ends {c : HttpCall} (hgo : c.LetsGo) (s : HttpSession)
    (hroom : c.adds = true → s.usedKv.length < httpHeaderKvMax) : ∃ s', execHttp c s = some s' := by
  cases c with
  | addHeaderKv key value =>
      show ∃ s', (s.httpAddHeaderKv key value).map Prod.snd = some s'
      unfold httpAddHeaderKv
      split
      · exact ⟨_, rfl⟩
      · rw [dif_pos (hroom rfl)]
        exact ⟨_, rfl⟩
  | get pHeaderStr hops => exact get_ends (hgo rfl).1 (hgo rfl).2 pHeaderStr s
  | post pData hops => exact post_ends (hgo rfl).1 (hgo rfl).2 pData s
  | readContent dataLen =>
      obtain ⟨r, hr⟩ := readContent_ends dataLen s
      exact ⟨_, congrArg (Option.map _) hr⟩
  | _ => exact ⟨_, rfl⟩

/-- The fields stay packed, and there are no more of them than there were and are added. -/
theorem packed_exec {c : HttpCall} {s s' : HttpSession} (hinit : s.isHttpInited = true)
    (hp : Packed s) (h : execHttp c s = some s') :
    Packed s' ∧ s'.usedKv.length ≤ s.usedKv.length + if c.adds then 1 else 0 := by
  rcases settings_exec hinit h with hkept | ⟨hcleared, -⟩ | ⟨key, value, hi, rfl, hset, -⟩
  · rw [Packed, usedKv, hkept.1]
    exact ⟨hp, Nat.le_add_right _ _⟩
  · refine ⟨packed_of_none hcleared, ?_⟩
    have hnone : s'.usedKv = [] := by
      rw [usedKv, hcleared]
      rfl
    rw [hnone]
    exact Nat.zero_le _
  · exact packed_set hp hi hset

/-- **Every sequence of calls comes to its end**, where the outside lets each of them go on and the
application adds no more than eight fields.  That the texts fit their buffers is not part of it. -/
theorem calls_end :
    ∀ (cs : List HttpCall) {s : HttpSession}, s.isHttpInited = true → Packed s →
      (∀ c ∈ cs, c.LetsGo) → s.usedKv.length + cs.countP HttpCall.adds ≤ httpHeaderKvMax →
      ∃ l s', Run.Runs execHttp s l s' ∧ l.map Run.Step.act = cs
  | [], s, _, _, _, _ => ⟨[], s, .nil, rfl⟩
  | c :: cs, s, hinit, hp, hgo, hcount => by
      have hcons : (c :: cs).countP HttpCall.adds
          = cs.countP HttpCall.adds + if c.adds then 1 else 0 := List.countP_cons
      rw [hcons] at hcount
      have hroom : c.adds = true → s.usedKv.length < httpHeaderKvMax := fun ha => by
        rw [if_pos ha] at hcount
        omega
      obtain ⟨s₁, he⟩ := exec_ends (hgo c (List.mem_cons_self ..)) s hroom
      obtain ⟨hp₁, hlen⟩ := packed_exec hinit hp he
      obtain ⟨l, s', hr, hacts⟩ := calls_end cs (callDoes_exec hinit he).choose_spec.inited hp₁
        (fun c' hc' => hgo c' (List.mem_cons_of_mem _ hc')) (by omega)
      exact ⟨⟨s, c, s₁⟩ :: l, s', hr.head he, congrArg (c :: ·) hacts⟩

theorem redirectedGet_ends :
    ∃ l s', Run.Runs execHttp freshSession l s' ∧ l.map Run.Step.act = redirectedGet := by
  have hsends : ∃ c ∈ [SendCall.mk (some 50) false, ⟨some 2048, false⟩, ⟨none, false⟩],
      c.takes = none ∨ c.rspReach = true := by decide
  have hfound : (servedHop 4 foundResponse).LetsGo := by
    refine ⟨hsends, fun t ht => ?_⟩
    rw [List.prefix_iff_eq_take.mp ht]
    exact (by decide +kernel : ∀ n < foundResponse.length + 1,
      (strstr (foundResponse.take n) headerEnd).isSome →
        httpParseRedirection (foundResponse.take n) httpUrlMaxLen ≠ none) _
      (Nat.lt_succ_of_le ht.length_le)
  have hlast : (servedHop 5 (okHeader [51] ++ [1, 2, 3])).Last := by
    intro t ht
    rw [List.prefix_iff_eq_take.mp ht]
    exact (by decide +kernel : ∀ n < (okHeader [51] ++ [1, 2, 3]).length + 1,
      httpParseRedirection ((okHeader [51] ++ [1, 2, 3]).take n) httpUrlMaxLen = some none) _
      (Nat.lt_succ_of_le ht.length_le)
  have hok : (servedHop 5 (okHeader [51] ++ [1, 2, 3])).LetsGo :=
    ⟨hsends, fun t ht _ => by rw [hlast t ht]; exact Option.some_ne_none _⟩
  refine calls_end redirectedGet rfl (packed_of_none rfl) (fun c hc hrequest => ?_) (by decide)
  simp only [redirectedGet, List.mem_cons, List.not_mem_nil, or_false] at hc
  rcases hc with rfl | rfl | rfl | rfl
  · exact absurd hrequest Bool.false_ne_true
  · exact absurd hrequest Bool.false_ne_true
  · refine ⟨fun hop hmem => ?_, _, List.mem_cons_of_mem _ (List.mem_singleton_self _), hlast⟩
    rcases List.mem_cons.mp hmem with rfl | hmem
    · exact hfound
    · rw [List.mem_singleton.mp hmem]
      exact hok
  · exact absurd hrequest Bool.false_ne_true

end IntercomSalve
