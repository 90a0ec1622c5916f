import Zimr.Proof.Body
import Zimr.Proof.Range
import Zimr.Spec.Urls

/-!
# The port of a URL, the host of a request

`port_read_iff` — the port is read where the path has no colon that could be taken for it.
`host_read_iff` — the host is read where nothing before it looks like its line.
-/

namespace Zimr

variable {s t : List UInt8} {c : UInt8}

/-! ## The port -/

theorem strstr_none (hz : 0 ∉ s) (hc : c ∉ s) : strstr s [c] = none := by
  have h := strstr_skip (a := s) (s := []) (f := [c]) hz fun i hi => no_prefix_char hc hi
  rw [List.append_nil] at h
  rw [h]
  rfl

/-- The first place of a character. -/
theorem strstr_at {a : List UInt8} (hz : 0 ∉ a) (hc0 : c ≠ 0) (hc : c ∉ a) (t : List UInt8) :
    strstr (a ++ c :: t) [c] = some a.length :=
  strstr_char (f := []) hz hc0 hc t

/-- The part before the first place of a character that is there. -/
theorem split_first (h : c ∈ s) : ∃ a b, s = a ++ c :: b ∧ c ∉ a := by
  induction s with
  | nil => exact (List.not_mem_nil h).elim
  | cons x s ih =>
    by_cases hx : c = x
    · exact ⟨[], s, by rw [hx]; rfl, List.not_mem_nil⟩
    · obtain ⟨a, b, rfl, ha⟩ := ih ((List.mem_cons.1 h).resolve_left hx)
      exact ⟨x :: a, b, rfl, fun hm => (List.mem_cons.1 hm).elim hx ha⟩

namespace SiteUrl

variable (u : SiteUrl)

/-- What stands between the host and the path. -/
def portText : List UInt8 := (u.port.map (58 :: ·)).getD []

theorem portText_zero : 0 ∉ u.portText := by
  unfold portText
  cases hp : u.port with
  | none => exact List.not_mem_nil
  | some ds =>
    intro h
    rcases List.mem_cons.1 h with h | h
    · cases h
    · exact (digit_facts ((u.port_number ds hp).1.digits 0 h)).2.2.2.2.2.2 rfl

theorem rest_zero : 0 ∉ u.rest := by
  intro h
  rcases List.mem_append.1 h with h | h
  · exact absurd h (by decide)
  · rcases List.mem_append.1 h with h | h
    · exact u.host_text.1 h
    · rcases List.mem_append.1 h with h | h
      · exact u.portText_zero h
      · exact u.path_text.1 h

theorem scheme_text : 0 ∉ u.scheme ∧ 58 ∉ u.scheme := by
  unfold scheme
  split <;> decide

theorem text_zero : 0 ∉ u.text := by
  intro h
  rcases List.mem_append.1 h with h | h
  · exact u.scheme_text.1 h
  · rcases List.mem_cons.1 h with h | h
    · cases h
    · exact u.rest_zero h

theorem text_https : startswith u.text (ascii "https://") = u.https := by
  have hhttps : ascii "https://" = [104, 116, 116, 112, 115, 58, 47, 47] := by decide
  have hs : ascii "https" = [104, 116, 116, 112, 115] := by decide
  have hp : ascii "http" = [104, 116, 116, 112] := by decide
  unfold text scheme rest
  rw [hhttps]
  cases u.https with
  | true =>
    rw [if_pos rfl, hs]
    exact startswith_iff.2 (List.prefix_append [104, 116, 116, 112, 115, 58, 47, 47] _)
  | false =>
    rw [if_neg Bool.false_ne_true, hp]
    rfl

end SiteUrl

/-- `get_port_from_url` behind the first colon: where the second one and the first `/` are. -/
def portFrom (https : Bool) (ptr1 : List UInt8) (second : Option ℕ) (slash : ℕ) : Except DFault ℤ :=
  match second with
  | none => .ok (if https then 443 else 80)
  | some i =>
    let port := (cstr (ptr1.drop (i + 1))).take (slash - (i + 1))
    if slash < i + 1 || 6 < slash - (i + 1) || 6 ≤ port.length then .error .outOfBounds
    else .ok (atoi port)

theorem getPort_eq (u : SiteUrl) (mem : List UInt8) :
    getPortFromUrl (u.text ++ 0 :: mem) = portFrom u.https (u.rest ++ 0 :: mem) (strstr u.rest [58])
      (((strstr (u.host ++ (u.portText ++ u.path)) [47]).map (· + 2)).getD u.rest.length) := by
  have hcolon : ascii ":" = [58] := by decide
  have hslash : ascii "/" = [47] := by decide
  have hfirst : strstr u.text [58] = some u.scheme.length :=
    strstr_at u.scheme_text.1 (by decide) u.scheme_text.2 _
  have hdrop : (u.text ++ 0 :: mem).drop (u.scheme.length + 1) = u.rest ++ 0 :: mem := by
    have hsplit : u.text ++ 0 :: mem = (u.scheme ++ [58]) ++ (u.rest ++ 0 :: mem) := by
      rw [SiteUrl.text, List.append_assoc, List.append_assoc]
      rfl
    have hlen : u.scheme.length + 1 = (u.scheme ++ [58]).length := by
      rw [List.length_append]
      rfl
    rw [hsplit, hlen, List.drop_left]
  have hdrop2 : (u.rest ++ 0 :: mem).drop 2 = (u.host ++ (u.portText ++ u.path)) ++ 0 :: mem := rfl
  have hz : 0 ∉ u.host ++ (u.portText ++ u.path) := fun h => u.rest_zero (List.mem_append_right _ h)
  unfold getPortFromUrl portFrom
  simp only [cstr_append_nul u.text_zero, hcolon, hslash, hfirst, hdrop, hdrop2,
    cstr_append_nul u.rest_zero, cstr_append_nul hz, u.text_https]
  cases strstr u.rest [58] <;> rfl

/-- The first `/` behind the host and the port. -/
theorem slash_eq (u : SiteUrl) :
    ((strstr (u.host ++ (u.portText ++ u.path)) [47]).map (· + 2)).getD u.rest.length =
      2 + u.host.length + u.portText.length := by
  have hslash : 47 ∉ u.host ++ u.portText := by
    intro h
    rcases List.mem_append.1 h with h | h
    · exact u.host_text.2.2 h
    · unfold SiteUrl.portText at h
      cases hp : u.port with
      | none =>
        rw [hp] at h
        exact List.not_mem_nil h
      | some ds =>
        rw [hp] at h
        rcases List.mem_cons.1 h with h | h
        · cases h
        · exact absurd ((u.port_number ds hp).1.digits 47 h).1 (by decide)
  have hz : 0 ∉ u.host ++ u.portText := fun h =>
    (List.mem_append.1 h).elim u.host_text.1 u.portText_zero
  rw [← List.append_assoc]
  rcases u.path_text.2 with hp | hp
  · rw [hp, List.append_nil, strstr_none hz hslash]
    unfold SiteUrl.rest SiteUrl.portText
    simp only [hp, Option.map_none, Option.getD_none, List.length_append, List.append_nil,
      List.length_cons, List.length_nil]
    omega
  · obtain ⟨p, hpath⟩ := List.head?_eq_some_iff.1 hp
    rw [hpath, strstr_at hz (by decide) hslash, List.length_append]
    simp only [Option.map_some, Option.getD_some]
    omega

theorem port_given {u : SiteUrl} {ds : List UInt8} (hp : u.port = some ds) (mem : List UInt8) :
    getPortFromUrl (u.text ++ 0 :: mem) = .ok u.number := by
  obtain ⟨hdec, hlen⟩ := u.port_number ds hp
  have hport : u.portText = 58 :: ds := by rw [SiteUrl.portText, hp]; rfl
  have hrest : u.rest = ([47, 47] ++ u.host) ++ 58 :: (ds ++ u.path) := by
    rw [SiteUrl.rest, hp, List.append_assoc]
    rfl
  have hz : 0 ∉ [47, 47] ++ u.host := fun h =>
    (List.mem_append.1 h).elim (fun h => absurd h (by decide)) u.host_text.1
  have hc : 58 ∉ [47, 47] ++ u.host := fun h =>
    (List.mem_append.1 h).elim (fun h => absurd h (by decide)) u.host_text.2.1
  have hsecond : strstr u.rest [58] = some ([47, 47] ++ u.host).length := by
    rw [hrest]
    exact strstr_at hz (by decide) hc _
  have hdrop : (u.rest ++ 0 :: mem).drop (([47, 47] ++ u.host).length + 1) =
      (ds ++ u.path) ++ 0 :: mem := by
    have hsplit : u.rest ++ 0 :: mem =
        (([47, 47] ++ u.host) ++ [58]) ++ ((ds ++ u.path) ++ 0 :: mem) := by
      rw [hrest]
      simp only [List.append_assoc, List.cons_append, List.nil_append]
    have hlen : ([47, 47] ++ u.host).length + 1 = (([47, 47] ++ u.host) ++ [58]).length := by
      simp only [List.length_append, List.length_cons, List.length_nil]
    rw [hsplit, hlen, List.drop_left]
  have hnul : 0 ∉ ds ++ u.path := by
    intro h
    rcases List.mem_append.1 h with h | h
    · exact (digit_facts (hdec.digits 0 h)).2.2.2.2.2.2 rfl
    · exact u.path_text.1 h
  have hwidth : 2 + u.host.length + u.portText.length - (([47, 47] ++ u.host).length + 1) =
      ds.length := by
    rw [hport, List.length_append, List.length_cons, List.length_cons, List.length_cons,
      List.length_nil]
    omega
  have hnumber : u.number = numOf 10 ds := by rw [SiteUrl.number, hp]
  rw [getPort_eq, slash_eq, hsecond, portFrom, hdrop, cstr_append_nul hnul, hwidth,
    List.take_left' rfl, atoi_decimal hdec, hnumber]
  refine if_neg ?_
  rw [hport, List.length_append]
  simp only [List.length_cons, List.length_nil, Bool.or_eq_true, decide_eq_true_eq]
  omega

theorem port_missing {u : SiteUrl} (hp : u.port = none) (mem : List UInt8) :
    getPortFromUrl (u.text ++ 0 :: mem) = .ok u.number ↔ 58 ∉ u.path := by
  have hport : u.portText = [] := by rw [SiteUrl.portText, hp]; rfl
  have hrest : u.rest = ([47, 47] ++ u.host) ++ u.path := by
    rw [SiteUrl.rest, hp, List.append_assoc]
    rfl
  have hc : 58 ∉ [47, 47] ++ u.host := fun h =>
    (List.mem_append.1 h).elim (fun h => absurd h (by decide)) u.host_text.2.1
  rw [getPort_eq, slash_eq, hport]
  constructor
  · intro h hpath
    -- the colon comes after the `/`
    obtain ⟨a, b, hsplit, ha⟩ := split_first hpath
    have hne : a ≠ [] := by
      rintro rfl
      rcases u.path_text.2 with h | h
      · rw [h] at hpath
        exact List.not_mem_nil hpath
      · rw [hsplit] at h
        cases h
    have hpos := List.length_pos_iff.2 hne
    have hall : u.rest = (([47, 47] ++ u.host) ++ a) ++ 58 :: b := by
      rw [hrest, hsplit]
      simp only [List.append_assoc]
    have hz : 0 ∉ ([47, 47] ++ u.host) ++ a := fun h0 =>
      u.rest_zero (hall ▸ List.mem_append_left _ h0)
    have hsecond : strstr u.rest [58] = some (([47, 47] ++ u.host) ++ a).length := by
      rw [hall]
      exact strstr_at hz (by decide) (fun h => (List.mem_append.1 h).elim hc ha) _
    rw [hsecond, portFrom, if_pos] at h
    · cases h
    · simp only [List.length_append, List.length_cons, List.length_nil, Bool.or_eq_true,
        decide_eq_true_eq]
      omega
  · intro hpath
    have hno : strstr u.rest [58] = none := by
      refine strstr_none u.rest_zero ?_
      rw [hrest]
      exact fun h => (List.mem_append.1 h).elim hc hpath
    rw [hno, portFrom, SiteUrl.number, hp]

/-- **The port is read** exactly when it is given, or the path has no colon. -/
theorem port_read_iff (u : SiteUrl) (mem : List UInt8) :
    getPortFromUrl (u.text ++ 0 :: mem) = .ok u.number ↔ u.port.isSome ∨ 58 ∉ u.path := by
  cases hp : u.port with
  | none =>
    rw [port_missing hp]
    exact ⟨Or.inr, fun h => h.resolve_left Bool.false_ne_true⟩
  | some ds => exact ⟨fun _ => Or.inl rfl, fun _ => port_given hp mem⟩

theorem colonUrl_host : 0 ∉ ascii "example.com" ∧ 58 ∉ ascii "example.com" ∧ 47 ∉ ascii "example.com" := by
  decide

theorem colonUrl_path : 0 ∉ ascii "/a:b" ∧ (ascii "/a:b" = [] ∨ (ascii "/a:b").head? = some 47) := by
  decide

theorem no_port (ds : List UInt8) (h : none = some ds) : Decimal ds ∧ ds.length ≤ 5 := by cases h

/-- `http://example.com/a:b`. -/
def colonUrl : SiteUrl where
  https := false
  host := ascii "example.com"
  port := none
  path := ascii "/a:b"
  host_text := colonUrl_host
  port_number := no_port
  path_text := colonUrl_path

/-- The length between the colon and the `/` is negative. -/
theorem port_misread : ¬∀ (u : SiteUrl) (mem : List UInt8),
    getPortFromUrl (u.text ++ 0 :: mem) = .ok u.number := by
  intro h
  exact (port_missing (u := colonUrl) rfl []).1 (h colonUrl []) (by decide)

/-! ## The host -/

/-- A string that is there is found where it is first, with any bound that leaves room for it. -/
theorem strnstr_place {a b f : List UInt8} {n : ℕ} (r : List UInt8) (hf : f ≠ []) (hz : 0 ∉ a ++ f)
    (hn : a.length + f.length ≤ n) : ∃ i, i ≤ a.length ∧ strnstr (a ++ f ++ b ++ r) f n = some i ∧
      f <+: (a ++ f ++ b).drop i ∧ ∀ j < i, ¬f <+: (a ++ f ++ b).drop j := by
  obtain ⟨i, hi, hfind⟩ := strnstr_exists hf a b n
    (fun c hc h => hz (List.mem_append_left _ (h ▸ hc)))
    (fun c hc h => hz (List.mem_append_right _ (h ▸ hc))) hn
  exact ⟨i, hi, strnstr_append r hfind, (strnstr_spec hfind).2.1, strnstr_first hfind⟩

/-- Two places that are both the first are the same. -/
theorem place_unique {i j : ℕ} (hi : f <+: s.drop i) (hi' : ∀ k < i, ¬f <+: s.drop k)
    (hj : f <+: s.drop j) (hj' : ∀ k < j, ¬f <+: s.drop k) : i = j := by
  rcases Nat.lt_trichotomy i j with h | h | h
  · exact absurd hi (hj' i h)
  · exact h
  · exact absurd hj (hi' j h)

namespace FieldLine

theorem text_zero (l : FieldLine) : 0 ∉ l.text := by
  intro h
  rcases List.mem_append.1 h with h | h
  · rcases List.mem_append.1 h with h | h
    · rcases List.mem_append.1 h with h | h
      · exact l.name_text.1 h
      · exact absurd h (by decide)
    · exact l.value_text.1 h
  · exact absurd h (by decide)

theorem texts_zero {ls : List FieldLine} : 0 ∉ (ls.map FieldLine.text).flatten := by
  intro h
  obtain ⟨t, ht, h0⟩ := List.mem_flatten.1 h
  obtain ⟨l, -, rfl⟩ := List.mem_map.1 ht
  exact l.text_zero h0

end FieldLine

namespace HttpHead

variable (h : HttpHead)

/-- What stands behind the line of the host. -/
def tail : List UInt8 := (h.after.map FieldLine.text).flatten ++ crlf

/-- What stands behind the target. -/
def behind : List UInt8 :=
  h.version ++ (crlf ++ ((h.before.map FieldLine.text).flatten ++
    (ascii "Host: " ++ (h.host.value ++ (crlf ++ h.tail)))))

theorem text_host : h.text = h.front ++ ascii "Host: " ++ (h.host.value ++ (crlf ++ h.tail)) := by
  have hname : ascii "Host: " = ascii "Host" ++ ascii ": " := by decide
  unfold text tail FieldLine.text
  rw [h.host_name, hname]
  simp only [List.append_assoc]

theorem text_target : h.text = h.method ++ [32] ++ (h.target ++ [32] ++ h.behind) := by
  rw [text_host]
  unfold front behind
  simp only [List.append_assoc]

theorem front_zero : 0 ∉ h.front := by
  intro h0
  simp only [front, List.mem_append] at h0
  rcases h0 with (((((h0 | h0) | h0) | h0) | h0) | h0) | h0
  · exact h.method_text.1 h0
  · exact absurd h0 (by decide)
  · exact h.target_text.1 h0
  · exact absurd h0 (by decide)
  · exact h.version_text.1 h0
  · exact absurd h0 (by decide)
  · exact FieldLine.texts_zero h0

theorem text_zero : 0 ∉ h.text := by
  intro h0
  rw [text_host] at h0
  simp only [tail, List.mem_append] at h0
  rcases h0 with (h0 | h0) | h0 | h0 | h0 | h0
  · exact h.front_zero h0
  · exact absurd h0 (by decide)
  · exact h.host.value_text.1 h0
  · exact absurd h0 (by decide)
  · exact FieldLine.texts_zero h0
  · exact absurd h0 (by decide)

theorem text_length : h.text.length = h.front.length + h.host.value.length + h.tail.length + 8 := by
  have hname : (ascii "Host: ").length = 6 := by decide
  have hcrlf : crlf.length = 2 := rfl
  rw [text_host]
  simp only [List.length_append, hname, hcrlf]
  omega

theorem front_length : h.method.length + h.target.length + h.version.length + 4 ≤ h.front.length := by
  have hcrlf : crlf.length = 2 := rfl
  unfold front
  simp only [List.length_append, List.length_cons, List.length_nil, hcrlf]
  omega

theorem tail_length : 2 ≤ h.tail.length := by
  rw [tail, List.length_append]
  exact Nat.le_add_left _ _

end HttpHead

/-- A space is found where the first one stands. -/
theorem space_found {a b rest : List UInt8} {n : ℕ} (hz : 0 ∉ a) (hc : 32 ∉ a) (hn : a.length + 1 ≤ n) :
    strnstr (a ++ [32] ++ b ++ rest) (ascii " ") n = some a.length := by
  have hspace : ascii " " = [32] := by decide
  have hz' : 0 ∉ a ++ [32] := fun h =>
    (List.mem_append.1 h).elim hz fun h => absurd h (by decide)
  obtain ⟨i, hi, hfind, hpre, -⟩ := strnstr_place (b := b) rest (List.cons_ne_nil 32 []) hz' hn
  rw [hspace, hfind]
  rcases Nat.lt_or_eq_of_le hi with hlt | rfl
  · rw [List.append_assoc] at hpre
    exact absurd hpre (no_prefix_char hc hlt)
  · rfl

/-- What `get_url_from_http_header` makes of a host and a target. -/
def urlMade (size : ℕ) (url : List UInt8) : Except DFault (Option (List UInt8)) :=
  if size ≤ url.length then .error .outOfBounds else .ok (some url)

namespace HttpHead

variable (h : HttpHead)

/-- The first `Host: `, and where its line ends. -/
structure Found (i n : ℕ) : Prop where
  here : ascii "Host: " <+: h.text.drop i
  first : ∀ j < i, ¬ascii "Host: " <+: h.text.drop j
  ends : strstr (h.text.drop (i + 6)) crlf = some n
  room : i + n + 10 ≤ h.text.length

theorem host_found : ∃ i n, h.Found i n := by
  have hname : (ascii "Host: ").length = 6 := by decide
  have hz : 0 ∉ h.front ++ ascii "Host: " := fun h0 =>
    (List.mem_append.1 h0).elim h.front_zero fun h0 => absurd h0 (by decide)
  obtain ⟨i, hi, -, hpre, hfirst⟩ := strnstr_place (b := h.host.value ++ (crlf ++ h.tail)) []
    (by decide) hz (Nat.le_refl _)
  rw [← text_host] at hpre hfirst
  -- the line ends at the end of the host's line, or before
  have hdrop : h.text.drop (i + 6) =
      (h.front ++ ascii "Host: " ++ h.host.value).drop (i + 6) ++ crlf ++ h.tail := by
    rw [text_host, ← List.append_assoc, ← List.append_assoc, List.append_assoc _ crlf,
      List.append_assoc _ crlf, List.drop_append_of_le_length]
    simp only [List.length_append, hname]
    omega
  have hline : 0 ∉ (h.front ++ ascii "Host: " ++ h.host.value).drop (i + 6) ++ crlf := by
    intro h0
    refine h.text_zero (List.mem_of_mem_drop (i := i + 6) ?_)
    rw [hdrop]
    exact List.mem_append_left _ h0
  obtain ⟨n, hn, hends, -, -⟩ := strnstr_place (b := h.tail)
    (n := (h.text.drop (i + 6)).length + crlf.length) [] (by decide) hline (by
      rw [hdrop]
      simp only [List.length_append]
      omega)
  rw [← hdrop, List.append_nil] at hends
  refine ⟨i, n, hpre, hfirst, hends, ?_⟩
  have htail := h.tail_length
  rw [text_length]
  simp only [List.length_drop, List.length_append, hname] at hn
  omega

theorem getUrl_eq {i n size : ℕ} (hf : h.Found i n) (rest : List UInt8) (hfit : h.text.length ≤ size) :
    getUrlFromHttpHeader (h.text ++ rest) size =
      urlMade size ((h.text.drop (i + 6)).take n ++ h.target) := by
  have hroom := hf.room
  have hends := hf.ends
  have hfront := h.front_length
  have hlen := h.text_length
  have hname : (ascii "Host: ").length = 6 := by decide
  have hcrlf : crlf.length = 2 := rfl
  have hend : ascii "\r\n" = crlf := by decide
  have hhost : strnstr (h.text ++ rest) (ascii "Host: ") size = some i := by
    obtain ⟨p, t, hsplit⟩ : ∃ p t, h.text = p ++ ascii "Host: " ++ t ∧ p.length = i := by
      obtain ⟨t, ht⟩ := hf.here
      exact ⟨h.text.take i, t, by rw [List.append_assoc, ht, List.take_append_drop],
        by rw [List.length_take]; omega⟩
    have hz : 0 ∉ p ++ ascii "Host: " := fun h0 =>
      h.text_zero (hsplit.1 ▸ List.mem_append_left _ h0)
    obtain ⟨j, -, hfind, hpre, hfirst⟩ := strnstr_place (b := t) (n := size) rest
      (by decide) hz (by rw [hname]; omega)
    rw [← hsplit.1] at hfind hpre hfirst
    rw [hfind, place_unique hpre hfirst hf.here hf.first]
  have hline : strnstr ((h.text ++ rest).drop (i + 6)) crlf (size - (i + 6) - 1) = some n := by
    rw [List.drop_append_of_le_length (by omega)]
    exact strnstr_append rest (strnstr_bound hends (by rw [hcrlf]; omega))
  have hsp : strnstr (h.text ++ rest) (ascii " ") (size - 1) = some h.method.length := by
    rw [text_target]
    exact space_found h.method_text.1 h.method_text.2.1 (by omega)
  have hdrop : (h.text ++ rest).drop (h.method.length + 1) = h.target ++ [32] ++ h.behind ++ rest := by
    have hmethod : h.method.length + 1 = (h.method ++ [32]).length := by rw [List.length_append]; rfl
    rw [text_target, List.append_assoc (h.method ++ [32]), hmethod, List.drop_left]
  have htarget : strnstr (h.target ++ [32] ++ h.behind ++ rest) (ascii " ")
      (size - (h.method.length + 1) - 1) = some h.target.length :=
    space_found h.target_text.1 h.target_text.2.1 (by omega)
  have htake : (h.target ++ [32] ++ h.behind ++ rest).take h.target.length = h.target := by
    rw [List.append_assoc, List.append_assoc, List.take_left]
  unfold getUrlFromHttpHeader urlMade
  simp only [hhost, hend, hline, hsp, hdrop, htarget, Option.getD_some, htake,
    if_neg (Nat.not_lt.2 (show i + 6 + 1 ≤ size by omega))]
  rw [List.drop_append_of_le_length (by omega), List.take_append_of_le_length]
  · rfl
  · rw [List.length_drop]
    omega

end HttpHead

/-- **The host is read** exactly when the first `Host: ` of the head is followed by it. -/
theorem host_read_iff (h : HttpHead) (rest : List UInt8) (hfit : h.text.length ≤ packDataSize) :
    getUrlFromHttpHeader (h.text ++ rest) packDataSize = .ok (some (h.host.value ++ h.target)) ↔
      h.HostFirst := by
  obtain ⟨i, n, hf⟩ := h.host_found
  have hname : (ascii "Host: ").length = 6 := by decide
  have hroom := hf.room
  rw [h.getUrl_eq hf rest hfit]
  constructor
  · intro hread
    -- what is copied is the line that the first `Host: ` begins
    have hurl : (h.text.drop (i + 6)).take n ++ h.target = h.host.value ++ h.target := by
      unfold urlMade at hread
      split at hread
      · cases hread
      · injection hread with hread
        injection hread
    obtain ⟨line, t, hline, rfl, -, -⟩ := strstr_crlf_inv hf.ends
    rw [hline, List.take_left, List.append_left_inj] at hurl
    obtain ⟨u, hu⟩ := hf.here
    have hbehind : u = h.text.drop (i + 6) := by
      rw [← List.drop_drop, ← hu, ← hname, List.drop_left]
    refine ⟨h.text.take i, t, ?_, fun j hj => hf.first j ?_⟩
    · rw [← hurl, ← hline, ← hbehind, hu, List.take_append_drop]
    · rw [List.length_take] at hj
      omega
  · rintro ⟨p, t, hsplit, hfirst⟩
    have hp : p.length = i := by
      refine place_unique (f := ascii "Host: ") (s := h.text) ?_ hfirst hf.here hf.first
      rw [hsplit, List.drop_left]
      exact List.prefix_append _ _
    have hdrop : h.text.drop (i + 6) = h.host.value ++ (crlf ++ t) := by
      rw [← List.drop_drop, hsplit, ← hp, List.drop_left, ← hname, List.drop_left]
    have hn : n = h.host.value.length := by
      have hends := hf.ends
      rw [hdrop, strstr_crlf h.host.value_text.1 h.host.value_text.2] at hends
      exact (Option.some.inj hends).symm
    rw [hdrop, hn, List.take_left]
    refine if_neg ?_
    have hlen := h.text_length
    have hfront := h.front_length
    rw [List.length_append]
    omega

theorem get_text : 0 ∉ ascii "GET" ∧ 32 ∉ ascii "GET" ∧ ¬crlf <:+: ascii "GET" := by decide

theorem root_text : 0 ∉ ascii "/" ∧ 32 ∉ ascii "/" ∧ ¬crlf <:+: ascii "/" := by decide

theorem version_text : 0 ∉ ascii "HTTP/1.1" ∧ 32 ∉ ascii "HTTP/1.1" ∧ ¬crlf <:+: ascii "HTTP/1.1" := by
  decide

theorem host_text : 0 ∉ ascii "Host" ∧ 58 ∉ ascii "Host" ∧ ¬crlf <:+: ascii "Host" := by decide

theorem xHost_text : 0 ∉ ascii "X-Host" ∧ 58 ∉ ascii "X-Host" ∧ ¬crlf <:+: ascii "X-Host" := by decide

theorem a_text : 0 ∉ ascii "a" ∧ ¬crlf <:+: ascii "a" := by decide

theorem b_text : 0 ∉ ascii "b" ∧ ¬crlf <:+: ascii "b" := by decide

def hostLine : FieldLine := ⟨ascii "Host", ascii "a", host_text, a_text⟩

def xHostLine : FieldLine := ⟨ascii "X-Host", ascii "b", xHost_text, b_text⟩

theorem hostLine_name : hostLine.name = ascii "Host" := rfl

theorem no_other_host : ∀ l ∈ ([] : List FieldLine) ++ [], l.name ≠ ascii "Host" := by decide

theorem xHost_other : ∀ l ∈ [xHostLine] ++ [], l.name ≠ ascii "Host" := by
  intro l hl
  obtain rfl := List.mem_singleton.1 hl
  decide

/-- `GET / HTTP/1.1` for the host `a`. -/
def plainHead : HttpHead :=
  ⟨ascii "GET", ascii "/", ascii "HTTP/1.1", [], hostLine, [], get_text, root_text, version_text,
    hostLine_name, no_other_host⟩

/-- The same with a line `X-Host: b` before the host's. -/
def xHostHead : HttpHead :=
  ⟨ascii "GET", ascii "/", ascii "HTTP/1.1", [xHostLine], hostLine, [], get_text, root_text, version_text,
    hostLine_name, xHost_other⟩

theorem host_read_plain : getUrlFromHttpHeader (plainHead.text ++ [0]) packDataSize =
    .ok (some (plainHead.host.value ++ plainHead.target)) :=
  (host_read_iff plainHead [0] (by decide)).2 ⟨plainHead.front, crlf, by decide, by decide⟩

/-- The host is taken from the line `X-Host`. -/
theorem host_misread : ¬∀ (h : HttpHead) (rest : List UInt8), h.text.length ≤ packDataSize →
    getUrlFromHttpHeader (h.text ++ rest) packDataSize = .ok (some (h.host.value ++ h.target)) := by
  intro h
  have hread : getUrlFromHttpHeader (xHostHead.text ++ []) packDataSize = .ok (some (ascii "b/")) := by
    decide
  have hclaim := h xHostHead [] (by decide)
  rw [hread] at hclaim
  revert hclaim
  decide

end Zimr
