import Zimr.Proof.Connection
import Zimr.Proof.Cstr
import Zimr.Spec.Multipart

/-!
# The body of a request

* `connectionCreate_parts` — a request that is accepted is read up to its headers
* `strstr_blankLine` — the first blank line of a request is that behind its headers
* `post_body_kept_iff` — the body arrives as it was sent exactly when nothing but NULs follows its
  first NUL, and there is a header to be followed by a blank line
-/

namespace Zimr

open Run

variable {line s t : List UInt8} {i : ℕ}

/-! ## Lines -/

theorem no_crlf_before (hline : ¬crlf <:+: line) (hi : i < line.length) :
    ¬crlf <+: (line ++ (crlf ++ t)).drop i := by
  intro h
  rw [List.drop_append_of_le_length (Nat.le_of_lt hi)] at h
  obtain ⟨x, y, hxy⟩ := List.exists_cons_of_ne_nil (List.ne_nil_of_length_pos
    (show 0 < (line.drop i).length by rw [List.length_drop]; omega))
  rw [hxy] at h
  obtain ⟨hx, h⟩ := List.cons_prefix_cons.1 h
  cases y with
  | nil =>
    -- the line feed would be the carriage return of the end
    have := (List.cons_prefix_cons.1 h).1
    revert this
    decide
  | cons z w =>
    have hz := (List.cons_prefix_cons.1 h).1
    apply hline
    have : crlf <+: line.drop i := by
      rw [hxy, ← hx, ← hz]
      exact List.prefix_append crlf w
    exact this.isInfix.trans (List.drop_suffix i line).isInfix

/-- A line ends where its end is written. -/
theorem strstr_crlf (hz : 0 ∉ line) (hline : ¬crlf <:+: line) (t : List UInt8) :
    strstr (line ++ (crlf ++ t)) crlf = some line.length := by
  rw [strstr_skip hz fun i hi => no_crlf_before hline hi]
  exact congrArg (Option.map (· + line.length)) (strstr_self (by decide) t)
    |>.trans (congrArg some (Nat.zero_add _))

/-- What is found ends a line. -/
theorem strstr_crlf_inv {n : ℕ} (h : strstr s crlf = some n) :
    ∃ line rest, s = line ++ (crlf ++ rest) ∧ line.length = n ∧ 0 ∉ line ∧ ¬crlf <:+: line := by
  obtain ⟨-, hpre, hn, hz⟩ := strnstr_spec h
  obtain ⟨rest, hrest⟩ := hpre
  refine ⟨s.take n, rest, ?_, ?_, fun h0 => hz 0 h0 rfl, ?_⟩
  · rw [hrest, List.take_append_drop]
  · rw [List.length_take]
    omega
  · rintro ⟨x, y, hxy⟩
    -- it would have been found there
    have hlen : x.length + 2 + y.length ≤ n := by
      have := congrArg List.length hxy
      rw [List.length_append, List.length_append, List.length_take] at this
      have hcrlf : crlf.length = 2 := rfl
      omega
    apply strnstr_first h x.length (by omega)
    have hs : s = x ++ (crlf ++ (y ++ s.drop n)) := by
      rw [← List.append_assoc, ← List.append_assoc, hxy, List.take_append_drop]
    rw [hs, List.drop_left]
    exact List.prefix_append crlf _

theorem linesText_cons (l : List UInt8) (ls : List (List UInt8)) :
    linesText (l :: ls) = l ++ (crlf ++ linesText ls) := by
  rw [linesText, List.map_cons, List.flatten_cons, List.append_assoc]
  rfl

/-- The first blank line of a request is the one behind its headers. -/
theorem strstr_blankLine (t : List UInt8) : ∀ {lines : List (List UInt8)}, lines ≠ [] →
    (∀ l ∈ lines, HeadLine l) →
    ∃ k, strstr (linesText lines ++ (crlf ++ t)) blankLine = some k ∧
      k + 2 = (linesText lines).length := by
  have hskip : ∀ (l s : List UInt8), HeadLine l → strstr (l ++ (crlf ++ s)) blankLine =
      (strstr (crlf ++ s) blankLine).map (· + l.length) := by
    intro l s hl
    refine strstr_skip hl.nul fun i hi h => no_crlf_before (t := s) hl.crlf hi ?_
    exact (List.prefix_append crlf crlf).trans h
  intro lines
  induction lines with
  | nil => intro h; exact absurd rfl h
  | cons l ls ih =>
    intro _ hok
    have hl := hok l List.mem_cons_self
    rw [linesText_cons, List.append_assoc, List.append_assoc, hskip l _ hl]
    cases ls with
    | nil =>
      refine ⟨0 + l.length, ?_, ?_⟩
      · exact congrArg (Option.map (· + l.length)) (strstr_self (f := [10, 13, 10]) (by decide) t)
      · simp only [linesText, List.map_nil, List.flatten_nil, List.length_append, Nat.zero_add]
        rfl
    | cons l' ls =>
      obtain ⟨k, hk, hlen⟩ := ih (List.cons_ne_nil _ _) fun x hx => hok x (List.mem_cons_of_mem _ hx)
      -- a blank line would make `l'` empty, or let it begin with `\r\n`
      have hl' := hok l' (List.mem_cons_of_mem _ List.mem_cons_self)
      have hno : ∀ i < crlf.length,
          ¬blankLine <+: (crlf ++ (linesText (l' :: ls) ++ (crlf ++ t))).drop i := by
        intro i hi h
        rw [linesText_cons, List.append_assoc, List.append_assoc] at h
        have hpos : 0 < l'.length := List.length_pos_iff.2 hl'.ne
        match i with
        | 0 => exact no_crlf_before (i := 0) hl'.crlf hpos ((List.prefix_append_right_inj crlf).1 h)
        | 1 =>
          have := (List.cons_prefix_cons.1 h).1
          revert this
          decide
      refine ⟨k + crlf.length + l.length, ?_, ?_⟩
      · rw [strstr_skip (by decide) hno, hk]
        rfl
      · rw [List.length_append, List.length_append]
        omega

/-! ## The start -/

/-- **A request that is accepted is read up to its headers**, which begin behind the first end of
a line. -/
theorem connectionCreate_parts {website : Website} {sockfd : ℕ} {raw : List UInt8}
    {conn : Connection} (h : connectionCreate website sockfd raw = .ok (some conn)) :
    ∃ type text tmp ptr, requestText raw = .ok (some (type, text)) ∧
      targetEnd text = some (tmp, ptr) ∧ connectionUrl website text ptr = .ok (conn.fullUrl, conn.url) ∧
      conn.type = type ∧ conn.rest = text.drop (tmp + 2) ∧ conn.website = website ∧
      conn.ip = raw.take 4 ∧ conn.hostname = (cstr (raw.drop 4)).take 128 := by
  obtain ⟨found, htext, h⟩ := bind_inv h
  split at h
  · cases h
  rename_i type text
  split at h
  · cases h
  rename_i tmp ptr hend
  obtain ⟨⟨fullUrl, url⟩, hurl, h⟩ := bind_inv h
  simp only at h
  obtain ⟨qs, hqs, h⟩ := bind_inv h
  split at h
  · cases h
  rename_i params behind
  split at h
  · cases h
  rename_i version rest hversion
  cases h
  refine ⟨type, text, tmp, ptr, htext, hend, hurl, rfl, ?_, rfl, rfl, rfl⟩
  -- the target ends within the request line
  obtain ⟨tmp', htmp, hend⟩ := Option.bind_eq_some_iff.1 hend
  obtain ⟨ptr', hptr, hend⟩ := Option.bind_eq_some_iff.1 hend
  cases hend
  obtain ⟨line, headers, rfl, rfl, hnul, hcrlf⟩ := strstr_crlf_inv htmp
  have hlt : ptr + 1 ≤ line.length := by
    rcases Option.or_eq_some_iff.1 hptr with hptr | ⟨-, hptr⟩
    · exact (strnstr_spec hptr).1
    · exact (strnstr_spec hptr).1
  -- and the query string does too
  have hqs' : ∃ j, j ≤ line.length ∧ behind = (line ++ (crlf ++ headers)).drop j := by
    unfold requestQs at hqs
    split at hqs
    · simp only at hqs
      split at hqs
      · cases hqs
      rename_i len hlen
      split at hqs
      · cases hqs
      cases hqs
      have hle : len + 1 ≤ line.length - (ptr + 1) := (strnstr_spec hlen).1
      exact ⟨ptr + 1 + (len + 1), by omega, List.drop_drop⟩
    · cases hqs
      exact ⟨ptr + 1, hlt, rfl⟩
  obtain ⟨j, hj, rfl⟩ := hqs'
  have hheaders : (line ++ (crlf ++ headers)).drop (line.length + 2) = headers := by
    rw [← List.drop_drop, List.drop_left]
    rfl
  unfold requestVersion at hversion
  split at hversion
  · rename_i hhttp
    have hfit : ascii "HTTP/" <+: line.drop j :=
      prefix_before (by decide) (startswith_iff.1 hhttp) hj
    have hj' : j + 5 ≤ line.length := by
      have := hfit.length_le
      rw [List.length_drop, show (ascii "HTTP/").length = 5 by decide] at this
      omega
    have hdrop : ((line ++ (crlf ++ headers)).drop j).drop 5 =
        line.drop (j + 5) ++ (crlf ++ headers) := by
      rw [List.drop_drop, List.drop_append_of_le_length hj']
    obtain ⟨n, hn, hrest⟩ := Option.map_eq_some_iff.1 hversion
    have hn' : some (line.drop (j + 5)).length = some n := by
      rw [← hn, hdrop]
      exact (strstr_crlf (fun h => hnul (List.mem_of_mem_drop h))
        (fun h => hcrlf (h.trans (List.drop_suffix _ _).isInfix)) _).symm
    cases hn'
    rw [hheaders, ← (Prod.mk.inj hrest).2, hdrop, ← List.drop_drop, List.drop_left]
    rfl
  · cases hversion

section Request

variable {req : PostRequest}

/-- The request line, behind `POST `. -/
theorem PostRequest.requestText (req : PostRequest) : requestText req.raw =
    .ok (some (.post, req.line ++ (crlf ++ req.rest))) := by
  have hdrop : req.raw.drop 4 =
      req.hostname ++ 0 :: (ascii "POST " ++ (req.line ++ (crlf ++ req.rest))) := by
    rw [PostRequest.raw, ← req.ip_length, List.drop_left]
  have hhost : cstr (req.raw.drop 4) = req.hostname := by
    rw [hdrop]
    unfold cstr
    have hne : ∀ x ∈ req.hostname, decide (x ≠ 0) = true := by
      intro x hx
      exact decide_eq_true fun h => req.hostname_nul (h ▸ hx)
    rw [List.takeWhile_append_of_pos hne, List.takeWhile_cons_of_neg (by simp), List.append_nil]
  have htext : (req.raw.drop 4).drop (req.hostname.length + 1) =
      ascii "POST " ++ (req.line ++ (crlf ++ req.rest)) := by
    rw [hdrop, ← List.drop_drop, List.drop_left]
    rfl
  have hshort : ¬(req.raw.length < 4 ∨ (req.raw.drop 4).length ≤ req.hostname.length) := by
    have hraw : 4 ≤ req.raw.length := by
      rw [PostRequest.raw, List.length_append, req.ip_length]
      omega
    rw [hdrop, List.length_append, List.length_cons]
    omega
  unfold Zimr.requestText
  simp only [hhost]
  rw [if_neg hshort, htext]
  rfl

theorem PostRequest.rest_eq {website : Website} {sockfd : ℕ} {conn : Connection}
    (h : connectionCreate website sockfd req.raw = .ok (some conn)) :
    conn.type = .post ∧ conn.rest = req.rest := by
  obtain ⟨type, text, tmp, ptr, htext, hend, -, htype, hrest, -⟩ := connectionCreate_parts h
  rw [req.requestText] at htext
  cases htext
  have hline : strstr (req.line ++ (crlf ++ req.rest)) (ascii "\r\n") = some req.line.length :=
    strstr_crlf req.line_nul req.line_crlf req.rest
  obtain ⟨tmp', htmp, hend⟩ := Option.bind_eq_some_iff.1 hend
  obtain ⟨ptr', -, hend⟩ := Option.bind_eq_some_iff.1 hend
  cases hend
  cases hline.symm.trans htmp
  refine ⟨htype, ?_⟩
  rw [hrest, ← List.drop_drop, List.drop_left]
  rfl

/-- The body is what follows the first blank line, if there is a header. -/
theorem PostRequest.blank (req : PostRequest) (hne : req.lines ≠ []) :
    ∃ k, strstr req.rest blankLine = some k ∧ req.rest.drop (k + 4) = req.body := by
  obtain ⟨k, hk, hlen⟩ := strstr_blankLine req.body hne req.lines_ok
  refine ⟨k, hk, ?_⟩
  have hk4 : k + 4 = (linesText req.lines ++ crlf).length := by
    rw [List.length_append]
    exact congrArg (· + 2) hlen
  rw [PostRequest.rest, ← List.append_assoc, hk4, List.drop_left]

/-- `connection_create` in its two parts. -/
theorem connectionCreateAll_inv {website : Website} {parseMultiparts : Bool} {sockfd size : ℕ}
    {c : ConnRequest}
    (h : connectionCreateAll website parseMultiparts sockfd req.raw size = .ok (some c)) :
    ∃ conn, conn.type = .post ∧ conn.rest = req.rest ∧
      connectionCreate website sockfd req.raw = .ok (some conn) ∧
      connectionBody parseMultiparts conn req.raw.length size = .ok c := by
  obtain ⟨found, hfound, h⟩ := bind_inv h
  have hconn := mapError_inv hfound
  cases found with
  | none => cases h
  | some conn =>
    obtain ⟨c', hc, h⟩ := bind_inv h
    cases h
    exact ⟨conn, (PostRequest.rest_eq hconn).1, (PostRequest.rest_eq hconn).2, hconn,
      mapError_inv hc⟩

/-! ## A body that is one text -/

/-- `strncpy` keeps what has nothing but NULs behind its first NUL. -/
theorem strncpyZero_iff (b : List UInt8) : (strncpyZero b b.length).take b.length = b ↔
    ∀ x ∈ b.drop (cstr b).length, x = 0 := by
  obtain ⟨r, hr⟩ : cstr b <+: b := List.takeWhile_prefix _
  have hdrop : b.drop (cstr b).length = r := by
    conv_lhs => arg 2; rw [← hr]
    exact List.drop_left
  have hlen : b.length = (cstr b).length + r.length := by
    rw [← List.length_append, hr]
  have hcopy : (strncpyZero b b.length).take b.length = cstr b ++ List.replicate r.length 0 := by
    have htake : (cstr b).take b.length = cstr b := List.take_of_length_le (by omega)
    rw [strncpyZero, htake, hlen, Nat.add_sub_cancel_left]
    exact List.take_of_length_le (by rw [List.length_append, List.length_replicate])
  rw [hcopy, hdrop]
  constructor
  · intro h x hx
    have hzero : List.replicate r.length 0 = r := List.append_cancel_left (h.trans hr.symm)
    rw [← hzero] at hx
    exact List.eq_of_mem_replicate hx
  · intro h
    rw [← List.eq_replicate_iff.2 ⟨rfl, h⟩, hr]

/-- What `connection_create` stores when it does not look for parts. -/
theorem connectionBody_text {parseMultiparts : Bool} {conn : Connection} {rawLen : ℕ}
    {c : ConnRequest} (htype : conn.type = .post) (hlen : conn.rest.length ≤ rawLen)
    (hno : multipartBoundary parseMultiparts
      (headersGetHeader (headersParse conn.rest) (ascii "Content-Type")) = none)
    (h : connectionBody parseMultiparts conn rawLen rawLen = .ok c) :
    (strstr conn.rest blankLine = none ∧ c.postBodyLen = 0 ∧ c.postBody = none) ∨
      ∃ k, strstr conn.rest blankLine = some k ∧
        c.postBodyLen = (conn.rest.drop (k + 4)).length ∧
        c.postBody = some (strncpyZero (conn.rest.drop (k + 4)) (conn.rest.drop (k + 4)).length) := by
  unfold connectionBody at h
  rw [if_pos htype] at h
  cases hk : strstr conn.rest blankLine with
  | none =>
    rw [hk] at h
    cases h
    exact Or.inl ⟨rfl, rfl, rfl⟩
  | some k =>
    rw [hk] at h
    simp only [hno] at h
    split at h
    · cases h
    obtain ⟨params, -, h⟩ := bind_inv h
    cases h
    have hptr : rawLen - (rawLen - (conn.rest.drop (k + 4)).length) =
        (conn.rest.drop (k + 4)).length := by
      have := List.length_drop (i := k + 4) (l := conn.rest)
      omega
    exact Or.inr ⟨k, rfl, hptr, congrArg (fun n => some (strncpyZero _ n)) hptr⟩

/-- **When a body that is not cut into parts arrives as it was sent**: the length is that of the
body, and the bytes are those of the body, exactly when nothing but NULs follows the first NUL in
it, and the request has a header (without one, it must have no body either). -/
theorem post_body_kept_iff (website : Website) (parseMultiparts : Bool) (sockfd : ℕ)
    (req : PostRequest) (c : ConnRequest)
    (hno : multipartBoundary parseMultiparts req.contentType = none)
    (h : connectionCreateAll website parseMultiparts sockfd req.raw req.raw.length =
      .ok (some c)) :
    (c.postBodyLen = req.body.length ∧ (c.postBody.getD []).take req.body.length = req.body) ↔
      (req.body = [] ∨ req.lines ≠ []) ∧ ∀ x ∈ req.body.drop (cstr req.body).length, x = 0 := by
  obtain ⟨conn, htype, hrest, -, hbody⟩ := connectionCreateAll_inv h
  have hraw : conn.rest.length ≤ req.raw.length := by
    rw [hrest]
    simp only [PostRequest.raw, List.length_append, List.length_cons]
    omega
  have hcases := connectionBody_text htype hraw (by rw [hrest]; exact hno) hbody
  rw [hrest] at hcases
  by_cases hlines : req.lines = []
  · -- without a header the first blank line is in the body, or begins with the end of the line
    have hrest' : req.rest = crlf ++ req.body := by rw [PostRequest.rest, hlines]; rfl
    have hempty : c.postBodyLen = req.body.length → req.body = [] := by
      intro hlen
      rcases hcases with ⟨-, hz, -⟩ | ⟨k, hk, hl, -⟩
      · exact List.eq_nil_of_length_eq_zero (hlen.symm.trans hz)
      · have hfit : k + 4 ≤ req.rest.length := strnstr_le hk
        have hsum : req.rest.length = 2 + req.body.length := by
          rw [hrest', List.length_append]
          rfl
        rw [List.length_drop] at hl
        omega
    constructor
    · rintro ⟨hlen, -⟩
      rw [hempty hlen]
      exact ⟨Or.inl rfl, fun x hx => (List.not_mem_nil hx).elim⟩
    · rintro ⟨hb | hl, -⟩
      · have hnone : strstr req.rest blankLine = none := by
          rw [hrest', hb]
          decide
        rcases hcases with ⟨-, hz, hp⟩ | ⟨k, hk, -⟩
        · rw [hz, hp, hb]
          exact ⟨rfl, rfl⟩
        · rw [hnone] at hk
          cases hk
      · exact absurd hlines hl
  · obtain ⟨k, hk, hdrop⟩ := req.blank hlines
    rcases hcases with ⟨hnone, -⟩ | ⟨k', hk', hlen, hp⟩
    · rw [hk] at hnone
      cases hnone
    · obtain rfl : k = k' := Option.some.inj (hk.symm.trans hk')
      rw [hdrop] at hlen hp
      rw [hlen, hp, Option.getD_some, strncpyZero_iff]
      constructor
      · exact fun h => ⟨Or.inr hlines, h.2⟩
      · exact fun h => ⟨rfl, h.2⟩

end Request

/-- A request with one header and a body. -/
def textPost (body : List UInt8) : PostRequest where
  ip := [127, 0, 0, 1]
  hostname := []
  line := ascii "/test/x HTTP/1.0"
  lines := [ascii "Host: a"]
  body := body
  ip_length := rfl
  hostname_nul := List.not_mem_nil
  line_nul := by decide
  line_crlf := by decide
  lines_ok := by decide

/-- What a request that is accepted has for its body. -/
theorem created_body {x : Except CreateFault (Option ConnRequest)} {n : ℕ}
    {b : Option (List UInt8)}
    (h : (x.toOption.join.map fun c => (c.postBodyLen, c.postBody)) = some (n, b)) :
    ∃ c, x = .ok (some c) ∧ c.postBodyLen = n ∧ c.postBody = b := by
  cases x with
  | error e => cases h
  | ok found =>
    cases found with
    | none => cases h
    | some c =>
      obtain ⟨hn, hb⟩ := Prod.mk.inj (Option.some.inj h)
      exact ⟨c, rfl, hn, hb⟩

/-- A body that ends in a NUL. -/
theorem post_body_kept_nul : ∃ c, connectionCreateAll testSite false 7 (textPost [97, 98, 0]).raw
      (textPost [97, 98, 0]).raw.length = .ok (some c) ∧
    c.postBodyLen = 3 ∧ (c.postBody.getD []).take 3 = [97, 98, 0] := by
  obtain ⟨c, hc, -, -⟩ := created_body (x := connectionCreateAll testSite false 7
    (textPost [97, 98, 0]).raw (textPost [97, 98, 0]).raw.length)
    (n := 3) (b := some [97, 98, 0]) (by decide)
  exact ⟨c, hc, (post_body_kept_iff testSite false 7 (textPost [97, 98, 0]) c rfl hc).2
    ⟨Or.inr (List.cons_ne_nil _ _), by decide +kernel⟩⟩

/-- The body `a`, NUL, `b`: the last byte is lost. -/
theorem post_body_cut : ¬∀ (website : Website) (parseMultiparts : Bool) (sockfd : ℕ)
    (req : PostRequest) (c : ConnRequest),
    multipartBoundary parseMultiparts req.contentType = none →
    connectionCreateAll website parseMultiparts sockfd req.raw req.raw.length = .ok (some c) →
    c.postBodyLen = req.body.length ∧ (c.postBody.getD []).take req.body.length = req.body := by
  intro h
  obtain ⟨c, hc, -, hbody⟩ := created_body (x := connectionCreateAll testSite false 7
    (textPost [97, 0, 98]).raw (textPost [97, 0, 98]).raw.length)
    (n := 3) (b := some [97, 0, 0]) (by decide)
  have hkept := (h testSite false 7 (textPost [97, 0, 98]) c rfl hc).2
  rw [hbody] at hkept
  revert hkept
  decide

end Zimr
