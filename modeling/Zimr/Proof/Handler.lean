import Zimr.Proof.Cstr
import Zimr.Proof.Wire
import Zimr.Spec.Handler

/-!
# Requests from the daemon

What a webapp holds of a request is a function of what has come in (`received`), so where the
bytes are cut does not matter.

* `request_reassembled` — `connection_create` is called once, at the last chunk
-/

namespace Zimr

variable {site : WebappSite} {msgid : ℕ} {connections : ℕ → Option WebConnData}
  {p q buf : List UInt8}

/-- What the webapp holds when `q` has come in of a request of `n` bytes. -/
def received (q : List UInt8) (n : ℕ) : WebConnData :=
  { data := q, sizeReceived := q.length, size := n, connection := none }

/-- A chunk after the first one that leaves something to come. -/
theorem handler_more (site : WebappSite) {n : ℕ} (hc : connections msgid = some (received q n))
    (hn : (q ++ buf).length < n) :
    zimrConnectionHandler site msgid connections buf =
      .ok (Function.update connections msgid (some (received (q ++ buf) n)), .waiting) := by
  rw [List.length_append] at hn
  have hq : q.take q.length = q := List.take_length
  simp only [zimrConnectionHandler, hc, received, bind, Except.bind, pure, Except.pure,
    List.length_append, hq]
  rw [if_neg (by omega), if_neg (by omega), if_neg (by omega)]

/-- The last chunk. -/
theorem handler_last (site : WebappSite) {n : ℕ} (hc : connections msgid = some (received q n)) (hq : q.length < n)
    (hn : (q ++ buf).length = n) :
    ∃ connections', zimrConnectionHandler site msgid connections buf =
      .ok (connections', .created (q ++ buf) n (answerRequest site msgid (q ++ buf) n)) := by
  rw [List.length_append] at hn
  have hqt : q.take q.length = q := List.take_length
  simp only [zimrConnectionHandler, hc, received, bind, Except.bind, pure, Except.pure, hqt]
  rw [if_neg (by omega), if_neg (by omega), if_pos hn]
  exact ⟨_, rfl⟩

/-- The first chunk is like a chunk without the size, when nothing has come in yet. -/
theorem handler_first {n : ℕ} (hc : connections msgid = none) (hn : n < sizeMod) :
    zimrConnectionHandler site msgid connections (leBytes 8 n ++ buf) =
      zimrConnectionHandler site msgid
        (Function.update connections msgid (some (received [] n))) buf := by
  have hlen : (leBytes 8 n).length = 8 := leBytes_length 8 n
  have hnum : leNum (leBytes 8 n) = n := by
    rw [leNum_leBytes]
    exact Nat.mod_eq_of_lt hn
  have hnew : Function.update connections msgid (some (received [] n)) msgid =
      some (received [] n) := Function.update_self ..
  have hlong : ¬(leBytes 8 n ++ buf).length < 8 := by
    rw [List.length_append]
    omega
  simp only [zimrConnectionHandler, hc, hnew, bind, Except.bind, pure, Except.pure, hlong, if_false,
    List.take_left' hlen, List.drop_left' hlen, hnum, Function.update_idem]
  rfl

/-- The run from some point on: `q` is there, and the rest comes in `bufs`, of which only the
first may be empty. -/
theorem feed_rest (site : WebappSite) (msgid : ℕ) : ∀ (bufs : List (List UInt8)) (q : List UInt8)
    (connections : ℕ → Option WebConnData), connections msgid = some (received q p.length) →
    q.length < p.length → q ++ bufs.flatten = p → (∀ c ∈ bufs.tail, c ≠ []) →
    (∃ connections' answer, feedChunks site msgid connections bufs = .ok (connections',
      List.replicate (bufs.length - 1) .waiting ++ [.created p p.length answer])) ∧
    ∀ k < bufs.length, ∃ connections', feedChunks site msgid connections (bufs.take k) =
      .ok (connections', List.replicate k .waiting) ∧
      connections' msgid = some (received (q ++ (bufs.take k).flatten) p.length) := by
  intro bufs
  induction bufs with
  | nil =>
    intro q connections _ hlt hp _
    rw [List.flatten_nil, List.append_nil] at hp
    rw [hp] at hlt
    omega
  | cons buf bufs ih =>
    intro q connections hc hlt hp hne
    rw [List.flatten_cons, ← List.append_assoc] at hp
    cases bufs with
    | nil =>
      -- this is the last chunk
      rw [List.flatten_nil, List.append_nil] at hp
      obtain ⟨connections', hl⟩ := handler_last site hc hlt (by rw [hp])
      refine ⟨⟨connections', answerRequest site msgid (q ++ buf) p.length, ?_⟩, ?_⟩
      · rw [feedChunks, hl, hp]
        rfl
      · intro k hk
        rw [List.length_singleton] at hk
        obtain rfl : k = 0 := by omega
        exact ⟨connections, rfl, by simpa using hc⟩
    | cons buf₂ bufs =>
      have hbuf₂ : 0 < buf₂.length :=
        List.length_pos_iff.2 (hne buf₂ List.mem_cons_self)
      have hlt' : (q ++ buf).length < p.length := by
        have := congrArg List.length hp
        simp only [List.flatten_cons, List.length_append] at this ⊢
        omega
      have hm := handler_more site hc hlt'
      obtain ⟨⟨c₁, answer, hrun⟩, hpre⟩ := ih (q ++ buf)
        (Function.update connections msgid (some (received (q ++ buf) p.length)))
        (Function.update_self ..) hlt' hp fun c hcm => hne c (List.mem_cons_of_mem _ hcm)
      refine ⟨⟨c₁, answer, ?_⟩, ?_⟩
      · rw [feedChunks, hm]
        simp only [bind, Except.bind, hrun]
        rfl
      · intro k hk
        cases k with
        | zero => exact ⟨connections, rfl, by simpa using hc⟩
        | succ k =>
          obtain ⟨c₂, hrun₂, hconn⟩ := hpre k (by simpa using hk)
          refine ⟨c₂, ?_, ?_⟩
          · rw [List.take_succ_cons, feedChunks, hm]
            simp only [bind, Except.bind, hrun₂]
            rfl
          · rw [hconn, List.take_succ_cons, List.flatten_cons, List.append_assoc]

/-- **Where the packets are cut does not matter.** Whatever the chunks that a request comes in,
the first with its size, `connection_create` is called once, at the last of them, with all of the
request; before that the webapp holds what has come in. -/
theorem request_reassembled (site : WebappSite) (msgid : ℕ)
    (connections : ℕ → Option WebConnData) (hfresh : connections msgid = none) (p : List UInt8)
    (hpos : 1 ≤ p.length) (hsize : p.length < sizeMod) (first : List UInt8)
    (rest : List (List UInt8)) (hcut : (first :: rest).flatten = leBytes 8 p.length ++ p)
    (hfirst : 8 ≤ first.length) (hrest : ∀ c ∈ rest, c ≠ []) :
    (∃ connections' answer, feedChunks site msgid connections (first :: rest) =
      .ok (connections', List.replicate rest.length .waiting ++ [.created p p.length answer])) ∧
    ∀ k ≤ rest.length, ∃ connections',
      feedChunks site msgid connections ((first :: rest).take k) =
        .ok (connections', List.replicate k .waiting) ∧
      (0 < k → ∃ conn, connections' msgid = some conn ∧
        conn.data = p.take (((first :: rest).take k).flatten.length - 8)) := by
  -- the size, and what the first chunk has of the request
  have hlen : (leBytes 8 p.length).length = 8 := leBytes_length 8 _
  obtain ⟨buf, rfl⟩ : ∃ buf, first = leBytes 8 p.length ++ buf := by
    have hpre : leBytes 8 p.length <+: first := by
      have hwhole : first <+: leBytes 8 p.length ++ p := by
        rw [← hcut]
        exact List.prefix_append _ _
      exact List.prefix_of_prefix_length_le (List.prefix_append _ _) hwhole (by omega)
    obtain ⟨buf, hbuf⟩ := hpre
    exact ⟨buf, hbuf.symm⟩
  rw [List.flatten_cons, List.append_assoc] at hcut
  have hp : [] ++ (buf :: rest).flatten = p := List.append_cancel_left hcut
  obtain ⟨⟨c₁, answer, hrun⟩, hpre⟩ := feed_rest site msgid (buf :: rest) []
    (Function.update connections msgid (some (received [] p.length))) (Function.update_self ..)
    hpos hp hrest
  -- with the size or without it, the first chunk does the same
  have hstart : ∀ bufs, feedChunks site msgid connections ((leBytes 8 p.length ++ buf) :: bufs) =
      feedChunks site msgid
        (Function.update connections msgid (some (received [] p.length))) (buf :: bufs) := by
    intro bufs
    rw [feedChunks, feedChunks, handler_first hfresh hsize]
  refine ⟨⟨c₁, answer, ?_⟩, ?_⟩
  · rw [hstart, hrun]
    rfl
  · intro k hk
    cases k with
    | zero => exact ⟨connections, rfl, fun h => absurd h (Nat.lt_irrefl 0)⟩
    | succ k =>
      obtain ⟨c₂, hrun₂, hconn⟩ := hpre (k + 1) (by rw [List.length_cons]; omega)
      refine ⟨c₂, ?_, fun _ => ⟨_, hconn, ?_⟩⟩
      · rw [List.take_succ_cons, hstart, ← List.take_succ_cons, hrun₂]
      · -- the part of the request that the chunks have
        have hq : (buf :: rest).take (k + 1) = buf :: rest.take k := List.take_succ_cons
        have hpart : (buf :: rest.take k).flatten <+: p := by
          rw [← hp, List.nil_append, ← hq]
          exact ⟨((buf :: rest).drop (k + 1)).flatten, by
            rw [← List.flatten_append, List.take_append_drop]⟩
        have hn : (((leBytes 8 p.length ++ buf) :: rest).take (k + 1)).flatten.length - 8 =
            (buf :: rest.take k).flatten.length := by
          rw [List.take_succ_cons, List.flatten_cons, List.flatten_cons, List.append_assoc,
            List.length_append, hlen]
          omega
        rw [hn, ← List.prefix_iff_eq_take.1 hpart, hq]
        rfl

/-- A website without modules and without a redirect. -/
def plainSite : WebappSite where
  website := { fullUrl := ascii "http://example.com/", sockfd := 3, ip := [], exlisnfd := 0 }
  parseMultiparts := true
  modules := []
  redirectUrl := none

/-- `ABC` in three chunks. -/
theorem request_reassembled_three :
    ∃ connections' answer, feedChunks plainSite 4 (fun _ => none)
      [[3, 0, 0, 0, 0, 0, 0, 0, 65], [66], [67]] =
        .ok (connections', [.waiting, .waiting, .created [65, 66, 67] 3 answer]) :=
  (request_reassembled plainSite 4 (fun _ => none) rfl [65, 66, 67] (by decide)
    (by decide) [3, 0, 0, 0, 0, 0, 0, 0, 65] [[66], [67]] (by decide)
    (by decide) (by decide)).1

end Zimr
