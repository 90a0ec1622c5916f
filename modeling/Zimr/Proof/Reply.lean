import Zimr.Lib.Run
import Zimr.Proof.Headers
import Zimr.Spec.Reply

/-!
# Replies

* `sendHead_spec` — what the status and the headers do to a reply
* `headersToString_length` — how long their text is
-/

namespace Zimr

variable {env : ServeEnv} {reply reply' : Reply} {name : String} {value : List UInt8}

/-! ## Numbers -/

theorem decText_small {n : ℕ} (h : n < 10) : decText n = [UInt8.ofNat (48 + n)] := by
  have hall : ∀ k : Fin 10, UInt8.ofNat (Nat.digitChar k).toNat = UInt8.ofNat (48 + k) := by
    decide
  unfold decText
  rw [Nat.toDigits_of_lt_base h]
  exact congrArg (fun c => [c]) (hall ⟨n, h⟩)

theorem decText_step {n : ℕ} (h : 10 ≤ n) : decText n = decText (n / 10) ++ decText (n % 10) := by
  unfold decText
  rw [Nat.toDigits_of_base_le (by omega) h, List.map_append,
    Nat.toDigits_of_lt_base (Nat.mod_lt n (by omega))]

theorem numOf_append (base : ℕ) (s t : List UInt8) :
    numOf base (s ++ t) = t.foldl (fun n c => n * base + digitVal c) (numOf base s) := by
  unfold numOf
  rw [List.foldl_append]

/-- A digit stands for its number. -/
theorem digitVal_digit {n : ℕ} (h : n < 10) : digitVal (UInt8.ofNat (48 + n)) = n := by
  have hall : ∀ k : Fin 10, digitVal (UInt8.ofNat (48 + k)) = k := by decide
  exact hall ⟨n, h⟩

/-- **The text of a number is that of its digits.** -/
theorem numOf_decText : ∀ n : ℕ, numOf 10 (decText n) = n := by
  intro n
  induction n using Nat.strongRecOn with
  | ind n ih =>
    by_cases h : n < 10
    · rw [decText_small h]
      show 0 * 10 + digitVal _ = n
      rw [digitVal_digit h]
      omega
    · rw [decText_step (by omega), numOf_append, ih (n / 10) (by omega),
        decText_small (Nat.mod_lt n (by omega))]
      show n / 10 * 10 + digitVal _ = n
      rw [digitVal_digit (Nat.mod_lt n (by omega))]
      omega

theorem decText_inj {m n : ℕ} (h : decText m = decText n) : m = n := by
  rw [← numOf_decText m, h, numOf_decText]

theorem decText_length {n k : ℕ} (hk : 0 < k) : (decText n).length ≤ k ↔ n < Nat.pow 10 k := by
  unfold decText
  rw [List.length_map]
  exact Nat.length_toDigits_le_iff (by omega) hk

theorem decText_digits (n : ℕ) : ∀ c ∈ decText n, 48 ≤ c ∧ c ≤ 57 := by
  have hall : ∀ k : Fin 10, 48 ≤ UInt8.ofNat (48 + k) ∧ UInt8.ofNat (48 + k) ≤ 57 := by decide
  induction n using Nat.strongRecOn with
  | ind n ih =>
    intro c hc
    by_cases h : n < 10
    · rw [decText_small h, List.mem_singleton] at hc
      rw [hc]
      exact hall ⟨n, h⟩
    · rw [decText_step (by omega), List.mem_append] at hc
      rcases hc with hc | hc
      · exact ih (n / 10) (by omega) c hc
      · exact ih (n % 10) (by omega) c hc

theorem intText_nat (n : ℕ) : intText n = decText n := by
  unfold intText
  rw [if_neg (by omega), Int.toNat_natCast]

/-! ## One header -/

theorem Reply.set_get (hck : keyOf (ascii name) ≠ ascii "Set-Cookie")
    (h : reply.set name value = .ok reply') :
    headersGetHeader reply'.headers (ascii name) = some ⟨keyOf (ascii name), value⟩ := by
  unfold Reply.set at h
  obtain ⟨hs, hset, rfl⟩ := Run.map_inv h
  exact headersSetHeader_get hck hset

/-- The names that `zimr_connection_send_headers` sets. -/
def headNames : List (List UInt8) := [ascii "Date", ascii "Server", ascii "Set-Cookie"]

theorem headNames_keys : keyOf (ascii "Date") = ascii "Date" ∧
    keyOf (ascii "Server") = ascii "Server" ∧ keyOf (ascii "Set-Cookie") = ascii "Set-Cookie" := by
  decide

/-- **The headers**: two are set, and `Set-Cookie` when there are cookies. -/
theorem responseHeaders_inv {hs : Headers} (h : responseHeaders env reply = .ok hs) :
    ∃ hs₁ hs₂, headersSetHeader reply.headers (ascii "Date") env.now = .ok hs₁ ∧
      headersSetHeader hs₁ (ascii "Server") (ascii "Zimr/" ++ env.version) = .ok hs₂ ∧
      (if env.cookies ≠ [] then headersSetHeader hs₂ (ascii "Set-Cookie") env.cookies
        else .ok hs₂) = .ok hs := by
  obtain ⟨hs₁, hd, h⟩ := Run.bind_inv h
  obtain ⟨hs₂, hsv, h⟩ := Run.bind_inv h
  exact ⟨hs₁, hs₂, hd, hsv, h⟩

/-- **They are written**, and with them a line of the log. -/
theorem sendHeaders_sent {hs : Headers} {sent : Reply × List UInt8}
    (h : responseHeaders env reply = .ok hs) (hsent : sendHeaders env reply = .ok sent) :
    sent = ({ reply with headers := hs }, headersToString hs) := by
  unfold sendHeaders at hsent
  rw [h] at hsent
  dsimp only [bind, Except.bind] at hsent
  split at hsent
  · cases hsent
  · obtain ⟨line, -, hsent⟩ := Run.bind_inv hsent
    cases hsent
    rfl

/-- **The status and the headers** are two buffers, and the other headers stay. -/
theorem sendHead_spec {head : List (List UInt8)} (h : sendHead env reply = .ok (reply', head)) :
    (∃ status, head = [status, headersToString reply'.headers]) ∧
      reply'.httpStatus = reply.httpStatus ∧
      ∀ name, keyOf name ∉ headNames →
        headersGetHeader reply'.headers name = headersGetHeader reply.headers name := by
  obtain ⟨status, -, h⟩ := Run.bind_inv h
  obtain ⟨⟨r, text⟩, h₁, h⟩ := Run.bind_inv h
  cases h
  obtain ⟨hs, hset, -⟩ := Run.bind_inv h₁
  cases sendHeaders_sent hset h₁
  obtain ⟨hs₁, hs₂, hd, hsv, hck⟩ := responseHeaders_inv hset
  refine ⟨⟨status, rfl⟩, rfl, fun name hname => ?_⟩
  obtain ⟨kd, ks, kc⟩ := headNames_keys
  simp only [headNames, List.mem_cons, List.not_mem_nil, or_false, not_or] at hname
  have h₃ : headersGetHeader hs name = headersGetHeader hs₂ name := by
    split at hck
    · exact headersSetHeader_other (by rw [kc]; exact hname.2.2) hck
    · rw [← Except.ok.inj hck]
  show headersGetHeader hs name = _
  rw [h₃, headersSetHeader_other (by rw [ks]; exact hname.2.1) hsv,
    headersSetHeader_other (by rw [kd]; exact hname.1) hd]

/-! ## The text of the headers -/

/-- The bytes that the headers take in the text. -/
def headersSize : Headers → ℕ
  | [] => 0
  | h :: hs => h.name.length + h.value.length + 4 + headersSize hs

theorem headersToString_length (hs : Headers) :
    (headersToString hs).length = headersSize hs + 2 := by
  have hsep : (ascii ": ").length = 2 := by decide
  unfold headersToString
  rw [List.length_append]
  congr 1
  induction hs with
  | nil => rfl
  | cons h hs ih =>
    rw [List.map_cons, List.flatten_cons, List.length_append, ih, headersSize]
    simp only [List.length_append, hsep, crlf, List.length_cons, List.length_nil]
    omega

theorem headersSize_append (hs hs' : Headers) :
    headersSize (hs ++ hs') = headersSize hs + headersSize hs' := by
  induction hs with
  | nil => exact (Nat.zero_add _).symm
  | cons h hs ih =>
    show h.name.length + h.value.length + 4 + headersSize (hs ++ hs') = _
    rw [ih, headersSize]
    omega

end Zimr
