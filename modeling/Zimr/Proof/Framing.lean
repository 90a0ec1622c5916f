import Mathlib.Data.List.Infix
import Zimr.Proof.Conns
import Zimr.Proof.Cstr
import Zimr.Proof.DeadLink

/-!
# The framing of a request

The recorded `exread` is `exread` (`exreadT_map`). What a tape holds follows the fields of
its connection (`Progress`), and from that the announced length is right exactly when
`Request.Exact` holds (`framed_iff`).
-/

namespace Zimr

open Run

namespace Daemon

variable {d d' : Daemon} {fd : ℕ} {conn : ConnData}

/-! ## The record changes nothing -/

theorem msgWritesT_map (fd msgid : ℕ) (bufs : List (List UInt8)) : ∀ d : Daemon,
    (d.msgWritesT fd msgid bufs).map (fun p => (p.1, p.2.1)) = d.msgWrites fd msgid bufs := by
  induction bufs with
  | nil => intro d; rfl
  | cons buf bufs ih =>
    intro d
    refine map_bind_same fun p => ?_
    obtain ⟨d₁, n⟩ := p
    cases n with
    | none => rfl
    | some n =>
      simp only
      rw [← ih d₁]
      exact map_bind_same fun _ => rfl

theorem exreadBodyT_map (d : Daemon) (fd w : ℕ) (conn : ConnData) (rest : List UInt8) :
    (d.exreadBodyT fd w conn rest).map (·.1) = d.exreadBody fd w conn rest := by
  refine map_bind_map (msgWritesT_map _ _ _ _) fun p => ?_
  obtain ⟨d₁, ok, out⟩ := p
  simp only
  split
  · exact map_bind_pure fun _ => rfl
  · split
    · exact map_bind_same fun p => map_bind_same fun _ => rfl
    · exact map_bind_same fun _ => rfl

theorem exreadOpenT_map (d : Daemon) (fd : ℕ) (site : Website) (conn : ConnData) (type : ReqType)
    (buffer : List UInt8) (hdrlen : ℕ) :
    (d.exreadOpenT fd site conn type buffer hdrlen).map (·.1) =
      d.exreadOpen fd site conn type buffer hdrlen := by
  refine map_bind_same fun p => ?_
  obtain ⟨d₁, msgid⟩ := p
  refine map_bind_same fun d₂ => map_bind_same fun postlen => ?_
  cases postlen with
  | none => exact map_bind_pure fun _ => rfl
  | some postlen =>
    refine map_bind_map (msgWritesT_map _ _ _ _) fun p => ?_
    obtain ⟨d₃, ok, out⟩ := p
    simp only
    split
    · exact map_bind_pure fun _ => rfl
    · rw [← exreadBodyT_map]
      cases d₃.exreadBodyT fd _ _ _ <;> rfl

theorem exreadHeaderT_map (d : Daemon) (fd : ℕ) (conn : ConnData) (buffer : List UInt8) :
    (d.exreadHeaderT fd conn buffer).map (·.1) = d.exreadHeader fd conn buffer := by
  unfold exreadHeaderT exreadHeader
  cases endOfHeaders buffer with
  | none => exact map_bind_pure fun _ => rfl
  | some hdrlen =>
    cases requestType buffer with
    | none => exact map_bind_pure fun _ => rfl
    | some type =>
      refine map_bind_same fun url => ?_
      cases url with
      | none => exact map_bind_pure fun _ => rfl
      | some url =>
        simp only
        cases (d.setConn fd { conn with requestType := some type }).zs.zsockets conn.exlisnfd with
        | none => rfl
        | some exlisn =>
          simp only
          cases websiteFind (d.setConn fd { conn with requestType := some type }).websites url
              (ascii (if conn.isHttps = true then "https://" else "http://"))
              (inetNtoa exlisn.addr) with
          | none => exact map_bind_pure fun _ => rfl
          | some site =>
            simp only
            split
            · exact map_bind_pure fun _ => rfl
            · exact exreadOpenT_map _ _ _ _ _ _ _

theorem exreadT_map (d : Daemon) (fd : ℕ) (r : RwRes) :
    (d.exreadT fd r).map (·.1) = d.exread fd r := by
  refine map_bind_same fun conn => map_bind_same fun p => ?_
  obtain ⟨d₁, got⟩ := p
  cases got with
  | error e => exact map_bind_pure fun _ => rfl
  | ok bytes =>
    simp only
    split
    · exact map_bind_pure fun _ => rfl
    · split
      · rfl
      · cases conn.websiteSockfd with
        | none =>
          simp only
          rw [← exreadHeaderT_map]
          cases exreadHeaderT _ _ _ _ <;> rfl
        | some w =>
          simp only [setConn]
          cases websiteGetBySockfd d₁.websites w with
          | none => exact map_bind_pure fun _ => rfl
          | some site =>
            simp only
            rw [← exreadBodyT_map]
            cases exreadBodyT _ _ _ _ _ <;> rfl

/-- **The tapes only record**: the daemon takes the same step. -/
theorem stepT_map (s : Daemon × (ℕ → Tape)) (a : Callback) :
    (stepT s a).map (·.1) = s.1.step a := by
  unfold stepT
  simp only
  split
  · rename_i fd r hr
    cases a <;> try cases hr
    rename_i fd' r' frames
    simp only [exsockReads] at hr
    split at hr
    · rename_i zs hz
      split at hr
      · rename_i hcond
        cases hr
        simp only [Bool.and_eq_true, decide_eq_true_eq] at hcond
        obtain ⟨⟨⟨har, hrd⟩, hh⟩, ht⟩ := hcond
        simp only [step, hz, har, hrd, Bool.and_self, if_true, zsReadReady, hh, ht]
        refine map_bind_same fun d => ?_
        rw [← exreadT_map]
        exact map_bind_same fun _ => rfl
      · cases hr
    · cases hr
  · exact map_bind_pure fun _ => rfl

/-! ## One read -/

/-- Only the entry of `fd` has changed. -/
def Others (fd : ℕ) (d d' : Daemon) : Prop := ∀ i, i ≠ fd → d'.connections i = d.connections i

theorem SameTabs.others (h : SameTabs d d') (fd : ℕ) : Others fd d d' :=
  fun i _ => by rw [h.connections]

theorem Others.trans {d₁ d₂ : Daemon} (h₁ : Others fd d d₁) (h₂ : Others fd d₁ d₂) :
    Others fd d d₂ :=
  fun i hi => (h₂ i hi).trans (h₁ i hi)

theorem setConn_others (d : Daemon) (fd : ℕ) (conn : ConnData) :
    Others fd d (d.setConn fd conn) :=
  fun _ hi => Function.update_of_ne hi _ _

theorem setConn_self {conn' : ConnData} (h : (d.setConn fd conn).connections fd = some conn') :
    conn' = conn := by
  have hs : (d.setConn fd conn).connections fd = some conn := Function.update_self _ _ _
  rw [hs] at h
  exact (Option.some.inj h).symm

theorem cleanup_gone (h : d.cleanupConnection fd = .ok d') :
    Others fd d d' ∧ d'.connections fd = none := by
  obtain ⟨c, conn', d₁, zs, r, hc, -, -, h₂, -, rfl⟩ := cleanupConnection_ok h
  obtain rfl : fd = c := by omega
  refine ⟨fun i hi => ?_, Function.update_self _ _ _⟩
  have ht := closeMsg_tabs h₂
  rw [← ht.connections]
  exact Function.update_of_ne hi _ _

theorem refuse_gone {page : Page} (h : d.refuse fd page = .ok d') :
    Others fd d d' ∧ d'.connections fd = none := by
  obtain ⟨⟨d₁, n⟩, h₁, h⟩ := bind_inv h
  obtain ⟨ho, hn⟩ := cleanup_gone h
  exact ⟨((callZs_tabs h₁).others fd).trans ho, hn⟩

/-- When every `msg_write` succeeds all the bytes are passed. -/
theorem msgWritesT_ok {w msgid : ℕ} {bufs : List (List UInt8)} {ok : Bool} {out : List UInt8} :
    ∀ {d : Daemon}, d.msgWritesT w msgid bufs = .ok (d', ok, out) →
      SameTabs d d' ∧ (ok = true → out = bufs.flatten) := by
  induction bufs generalizing out with
  | nil => intro d h; cases h; exact ⟨SameTabs.refl _, fun _ => rfl⟩
  | cons buf bufs ih =>
    intro d h
    obtain ⟨⟨d₁, n⟩, h₁, h⟩ := bind_inv h
    have ht := tryMsg_tabs h₁
    cases n with
    | none => cases h; exact ⟨ht, fun hb => by cases hb⟩
    | some n =>
      obtain ⟨⟨d₂, ok', out'⟩, h₂, h⟩ := bind_inv h
      cases h
      obtain ⟨ht', ho⟩ := ih h₂
      exact ⟨ht.trans ht', fun hb => by rw [ho hb]; rfl⟩

/-- The entry after the body bytes that one read brought. -/
def afterBody (conn : ConnData) (rest : List UInt8) : ConnData :=
  { conn with
    postlen := if bodyLeft conn rest = 0 then allReceived else bodyLeft conn rest
    buffer := none }

theorem exreadBodyT_ok {w : ℕ} {rest out : List UInt8}
    (h : d.exreadBodyT fd w conn rest = .ok (d', out)) :
    Others fd d d' ∧ ∀ conn', d'.connections fd = some conn' →
      out = (bodyWrites conn rest).flatten ∧ conn' = afterBody conn rest := by
  obtain ⟨⟨d₁, ok, out₁⟩, h₁, h⟩ := bind_inv h
  obtain ⟨ht, hout⟩ := msgWritesT_ok h₁
  simp only at h
  split at h
  · obtain ⟨d₂, h₂, h⟩ := bind_inv h
    cases h
    obtain ⟨ho, hn⟩ := refuse_gone h₂
    exact ⟨(ht.others fd).trans ho, fun conn' hc => by rw [hn] at hc; cases hc⟩
  · rename_i hok
    have hout := hout (by simpa using hok)
    split at h
    · rename_i hleft
      obtain ⟨⟨d₂, n⟩, h₂, h⟩ := bind_inv h
      obtain ⟨d₃, h₃, h⟩ := bind_inv h
      cases h
      have ht' := (ht.trans (tryMsg_tabs h₂)).trans (callZs'_tabs h₃)
      refine ⟨(ht'.others fd).trans (setConn_others _ _ _), fun conn' hc => ⟨hout, ?_⟩⟩
      rw [afterBody, if_pos hleft]
      exact setConn_self hc
    · rename_i hleft
      obtain ⟨d₂, h₂, h⟩ := bind_inv h
      cases h
      have ht' := ht.trans (assertMsg'_tabs h₂)
      refine ⟨(ht'.others fd).trans (setConn_others _ _ _), fun conn' hc => ⟨hout, ?_⟩⟩
      rw [afterBody, if_neg hleft]
      exact setConn_self hc

theorem exreadOpenT_ok {site : Website} {type : ReqType} {buffer out : List UInt8} {hdrlen : ℕ}
    (h : d.exreadOpenT fd site conn type buffer hdrlen = .ok (d', out)) :
    Others fd d d' ∧ ∀ conn', d'.connections fd = some conn' →
      ∃ msgid postlen, requestPostlen type buffer = .ok (some postlen) ∧
        out = (headWrites conn.addr buffer hdrlen postlen).flatten ++
          (bodyWrites { conn with msgid, postlen } (buffer.drop hdrlen)).flatten ∧
        conn' = afterBody { conn with msgid, postlen } (buffer.drop hdrlen) := by
  obtain ⟨⟨d₁, msgid⟩, h₁, h⟩ := bind_inv h
  obtain ⟨d₂, h₂, h⟩ := bind_inv h
  have ho₂ : Others fd d d₂ := (((assertMsg_tabs h₁).others fd).trans (setConn_others _ _ _)).trans
    ((callZs'_tabs h₂).others fd)
  obtain ⟨postlen, hp, h⟩ := bind_inv h
  cases postlen with
  | none =>
    obtain ⟨d₃, h₃, h⟩ := bind_inv h
    cases h
    obtain ⟨ho, hn⟩ := refuse_gone h₃
    exact ⟨ho₂.trans ho, fun conn' hc => by rw [hn] at hc; cases hc⟩
  | some postlen =>
    obtain ⟨⟨d₃, ok, out₃⟩, h₃, h⟩ := bind_inv h
    obtain ⟨ht₃, hout⟩ := msgWritesT_ok h₃
    have ho₃ := (ho₂.trans (setConn_others _ fd _)).trans (ht₃.others fd)
    simp only at h
    split at h
    · obtain ⟨d₄, h₄, h⟩ := bind_inv h
      cases h
      obtain ⟨ho, hn⟩ := refuse_gone h₄
      exact ⟨ho₃.trans ho, fun conn' hc => by rw [hn] at hc; cases hc⟩
    · rename_i hok
      have hout := hout (by simpa using hok)
      obtain ⟨⟨d₄, body⟩, h₄, h⟩ := bind_inv h
      cases h
      obtain ⟨ho, hconn⟩ := exreadBodyT_ok h₄
      refine ⟨ho₃.trans ho, fun conn' hc => ⟨msgid, postlen, hp, ?_, (hconn conn' hc).2⟩⟩
      rw [hout, (hconn conn' hc).1]

theorem exreadHeaderT_ok {buffer out : List UInt8} (hd : d.connections fd = some conn)
    (h : d.exreadHeaderT fd conn buffer = .ok (d', out)) :
    Others fd d d' ∧ ∀ conn', d'.connections fd = some conn' →
      (endOfHeaders buffer = none ∧ out = [] ∧ conn' = conn) ∨
      ∃ hdrlen type w msgid postlen, endOfHeaders buffer = some hdrlen ∧
        requestType buffer = some type ∧ requestPostlen type buffer = .ok (some postlen) ∧
        out = (headWrites conn.addr buffer hdrlen postlen).flatten ++
          (bodyWrites
            { conn with requestType := some type, websiteSockfd := some w, msgid, postlen }
            (buffer.drop hdrlen)).flatten ∧
        conn' = afterBody
          { conn with requestType := some type, websiteSockfd := some w, msgid, postlen }
          (buffer.drop hdrlen) := by
  -- a refusal leaves no entry
  have gone : ∀ {d₁ d₂ : Daemon} {page : Page} {P : ConnData → Prop}, Others fd d d₁ →
      d₁.refuse fd page = .ok d₂ → Others fd d d₂ ∧ ∀ conn', d₂.connections fd = some conn' →
        P conn' := by
    intro d₁ d₂ page P ho₁ hr
    obtain ⟨ho, hn⟩ := refuse_gone hr
    exact ⟨ho₁.trans ho, fun conn' hc => by rw [hn] at hc; cases hc⟩
  have ho : Others fd d d := (SameTabs.refl d).others fd
  unfold exreadHeaderT at h
  split at h
  · rename_i hend
    obtain ⟨d₁, h₁, h⟩ := bind_inv h
    cases h
    split at h₁
    · exact gone ho h₁
    · have ht := callZs'_tabs h₁
      refine ⟨ht.others fd, fun conn' hc => Or.inl ⟨hend, rfl, ?_⟩⟩
      rw [ht.connections, hd] at hc
      exact (Option.some.inj hc).symm
  · rename_i hdrlen hend
    split at h
    · obtain ⟨d₁, h₁, h⟩ := bind_inv h
      cases h
      exact gone ho h₁
    · rename_i type htype
      obtain ⟨url, -, h⟩ := bind_inv h
      have ho₁ := ho.trans (setConn_others d fd { conn with requestType := some type })
      cases url with
      | none =>
        obtain ⟨d₁, h₁, h⟩ := bind_inv h
        cases h
        exact gone ho₁ h₁
      | some url =>
        simp only at h
        split at h
        · cases h
        · split at h
          · obtain ⟨d₁, h₁, h⟩ := bind_inv h
            cases h
            exact gone ho₁ h₁
          · rename_i site hsite
            have ho₂ := ho₁.trans (setConn_others _ fd
              { conn with requestType := some type, websiteSockfd := some site.sockfd })
            split at h
            · obtain ⟨d₁, h₁, h⟩ := bind_inv h
              cases h
              exact gone ho₂ h₁
            · obtain ⟨ho₃, hconn⟩ := exreadOpenT_ok h
              refine ⟨ho₂.trans ho₃, fun conn' hc => Or.inr ?_⟩
              obtain ⟨msgid, postlen, hp, hout, he⟩ := hconn conn' hc
              exact ⟨hdrlen, type, site.sockfd, msgid, postlen, hend, htype, hp, hout, he⟩

/-- **What one read does to a connection that survives it.** -/
theorem exreadT_ok {r : RwRes} {bytes out : List UInt8}
    (h : d.exreadT fd r = .ok (d', bytes, out)) :
    Others fd d d' ∧ ∀ conn', d'.connections fd = some conn' →
      ∃ conn, d.connections fd = some conn ∧ bytes ≠ [] ∧
        let buffer := conn.buffer.getD [] ++ bytes
        (conn.postlen = allReceived ∧ out = [] ∧
            conn' = { conn with buffer := some (conn.buffer.getD []) }) ∨
        (conn.postlen ≠ allReceived ∧ conn.websiteSockfd = none ∧ endOfHeaders buffer = none ∧
          out = [] ∧ conn' = { conn with buffer := some buffer }) ∨
        (conn.postlen ≠ allReceived ∧ conn.websiteSockfd = none ∧
          ∃ hdrlen type w msgid postlen, endOfHeaders buffer = some hdrlen ∧
            requestType buffer = some type ∧ requestPostlen type buffer = .ok (some postlen) ∧
            out = (headWrites conn.addr buffer hdrlen postlen).flatten ++
              (bodyWrites { conn with
                requestType := some type, websiteSockfd := some w, msgid, postlen
                buffer := some buffer } (buffer.drop hdrlen)).flatten ∧
            conn' = afterBody { conn with
              requestType := some type, websiteSockfd := some w, msgid, postlen
              buffer := some buffer } (buffer.drop hdrlen)) ∨
        (conn.postlen ≠ allReceived ∧ conn.websiteSockfd ≠ none ∧
          out = (bodyWrites { conn with buffer := some buffer } buffer).flatten ∧
          conn' = afterBody { conn with buffer := some buffer } buffer) := by
  obtain ⟨conn, h₁, h⟩ := bind_inv h
  obtain ⟨c, he, -, hconn⟩ := getConn_ok h₁
  obtain rfl : fd = c := by omega
  obtain ⟨⟨d₁, got⟩, h₂, h⟩ := bind_inv h
  have ht := callZs_tabs h₂
  have ho₁ : Others fd d d₁ := (setConn_others _ _ _).trans (ht.others fd)
  -- a refusal leaves no entry
  have gone : ∀ {d₂ : Daemon} {P : ConnData → Prop}, Others fd d₁ d₂ ∧ d₂.connections fd = none →
      Others fd d d₂ ∧ ∀ conn', d₂.connections fd = some conn' → P conn' := by
    intro d₂ P hr
    exact ⟨ho₁.trans hr.1, fun conn' hc => by rw [hr.2] at hc; cases hc⟩
  cases got with
  | error e =>
    obtain ⟨d₂, h₃, h⟩ := bind_inv h
    cases h
    exact gone (cleanup_gone h₃)
  | ok got =>
    simp only at h
    split at h
    · obtain ⟨d₂, h₃, h⟩ := bind_inv h
      cases h
      exact gone (cleanup_gone h₃)
    · rename_i hne
      split at h
      · rename_i hall
        cases h
        refine ⟨ho₁, fun conn' hc => ⟨conn, hconn, hne, Or.inl ⟨hall, rfl, ?_⟩⟩⟩
        rw [ht.connections] at hc
        exact setConn_self hc
      · rename_i hall
        have ho₂ := ho₁.trans (setConn_others d₁ fd
          { conn with buffer := some (conn.buffer.getD [] ++ got) })
        split at h
        · rename_i hw
          obtain ⟨⟨d₂, out'⟩, h₃, h⟩ := bind_inv h
          cases h
          obtain ⟨ho₃, hcases⟩ := exreadHeaderT_ok (Function.update_self _ _ _) h₃
          refine ⟨ho₂.trans ho₃, fun conn' hc => ⟨conn, hconn, hne, Or.inr ?_⟩⟩
          obtain ⟨hend, hout, hc'⟩ | hfull := hcases conn' hc
          · exact Or.inl ⟨hall, hw, hend, hout, hc'⟩
          · exact Or.inr (Or.inl ⟨hall, hw, hfull⟩)
        · rename_i w hw
          split at h
          · obtain ⟨d₂, h₃, h⟩ := bind_inv h
            cases h
            obtain ⟨ho, hn⟩ := refuse_gone h₃
            exact ⟨ho₂.trans ho, fun conn' hc => by rw [hn] at hc; cases hc⟩
          · obtain ⟨⟨d₂, out'⟩, h₃, h⟩ := bind_inv h
            cases h
            obtain ⟨ho₃, hb⟩ := exreadBodyT_ok h₃
            refine ⟨ho₂.trans ho₃, fun conn' hc => ⟨conn, hconn, hne, Or.inr (Or.inr (Or.inr ?_))⟩⟩
            have hw' : conn.websiteSockfd ≠ none := by
              rw [show conn.websiteSockfd = some w from hw]
              exact Option.some_ne_none w
            exact ⟨hall, hw', (hb conn' hc).1, (hb conn' hc).2⟩

end Daemon

open Daemon

variable {d d' : Daemon} {conn conn' : ConnData} {t : Tape}

/-! ## What a tape holds -/

/-- The header block is not complete. -/
structure Waiting (conn : ConnData) (t : Tape) : Prop where
  website : conn.websiteSockfd = none
  out : t.out = []
  postlen : conn.postlen = 0
  buffer : conn.buffer.getD [] = t.chunks.flatten
  noEnd : endOfHeaders t.chunks.flatten = none

/-- What the first `k` reads brought. -/
def Tape.upTo (t : Tape) (k : ℕ) : List UInt8 := (t.chunks.take k).flatten

/-- The header block was complete after `k₀` reads, with a length of `v`. The bytes of the
first `k` reads are passed on, when there is a body at all. -/
structure Passed (conn : ConnData) (t : Tape) (type : ReqType) (hdrlen v k₀ k : ℕ) : Prop where
  website : conn.websiteSockfd ≠ none
  type_eq : conn.requestType = some type
  le₀ : k₀ ≤ k
  le : k ≤ t.chunks.length
  ends : endOfHeaders (t.upTo k₀) = some hdrlen
  starts : requestType (t.upTo k₀) = some type
  length : requestPostlen type (t.upTo k₀) = .ok (some v)
  out : t.out = leBytes 8 (msgLen hdrlen v) ++ (leBytes 4 conn.addr ++ [0] ++
    (if type = .post ∧ v ≠ 0 then t.upTo k else (t.upTo k₀).take hdrlen))
  left : (conn.postlen = allReceived ∧ (v + 1 < sizeMod → type = .post ∧ v ≠ 0 →
        hdrlen + v ≤ (t.upTo k).length ∧ (t.upTo (k - 1)).length < hdrlen + v)) ∨
      ((type = .post ∧ v ≠ 0) ∧ k = t.chunks.length ∧ (t.upTo k).length < hdrlen + v ∧
        conn.postlen = hdrlen + v - (t.upTo k).length ∧ conn.buffer = none)

/-- Either. -/
def Progress (conn : ConnData) (t : Tape) : Prop :=
  Waiting conn t ∨ ∃ type hdrlen v k₀ k, Passed conn t type hdrlen v k₀ k

theorem Daemon.Fresh.progress (h : Fresh conn) : Progress conn {} :=
  Or.inl ⟨h.websiteSockfd, rfl, h.postlen, by rw [h.buffer]; rfl, rfl⟩

/-- One more read. -/
def Tape.add (t : Tape) (bytes out : List UInt8) : Tape :=
  { chunks := t.chunks ++ [bytes], out := t.out ++ out }

theorem Tape.upTo_add {bytes out : List UInt8} {k : ℕ} (h : k ≤ t.chunks.length) :
    (t.add bytes out).upTo k = t.upTo k := by
  unfold Tape.upTo Tape.add
  rw [List.take_append_of_le_length h]

theorem Tape.upTo_all (t : Tape) : t.upTo t.chunks.length = t.chunks.flatten := by
  unfold Tape.upTo
  rw [List.take_length]

theorem Tape.upTo_add_all (t : Tape) (bytes out : List UInt8) :
    (t.add bytes out).upTo (t.chunks.length + 1) = t.chunks.flatten ++ bytes := by
  have hl : (t.add bytes out).chunks.length = t.chunks.length + 1 := by simp [Tape.add]
  rw [← hl, Tape.upTo_all, Tape.add]
  simp

theorem Tape.upTo_mono (t : Tape) {j k : ℕ} (h : j ≤ k) : t.upTo j <+: t.upTo k :=
  List.IsPrefix.flatten (List.take_prefix_take_left h)

theorem hdrlen_le {s : List UInt8} {n : ℕ} (h : endOfHeaders s = some n) : n ≤ s.length := by
  obtain ⟨i, hi, rfl⟩ := Option.map_eq_some_iff.1 h
  exact strnstr_le hi

theorem Passed.hdrlen_le {type : ReqType} {hdrlen v k₀ k : ℕ} (h : Passed conn t type hdrlen v k₀ k) :
    hdrlen ≤ (t.upTo k).length :=
  Nat.le_trans (Zimr.hdrlen_le h.ends) (t.upTo_mono h.le₀).length_le

/-- What is left of a body is never `-1`, for a length that is not itself `-1`. -/
theorem Passed.received {type : ReqType} {hdrlen v k₀ k : ℕ} (h : Passed conn t type hdrlen v k₀ k)
    (ha : conn.postlen = allReceived) (hv : v + 1 < sizeMod) (hp : type = .post ∧ v ≠ 0) :
    hdrlen + v ≤ (t.upTo k).length ∧ (t.upTo (k - 1)).length < hdrlen + v := by
  obtain ⟨-, hl⟩ | ⟨-, -, -, hl, -⟩ := h.left
  · exact hl hv hp
  · have := h.hdrlen_le
    unfold allReceived at ha
    omega

/-- A header block that was not complete ends in the bytes that completed it. -/
theorem endOfHeaders_new {s bytes : List UInt8} {n : ℕ} (h : endOfHeaders s = none)
    (hn : endOfHeaders (s ++ bytes) = some n) : s.length < n := by
  by_contra hle
  obtain ⟨i, hi, rfl⟩ := Option.map_eq_some_iff.1 hn
  have h4 : (ascii "\r\n\r\n").length = 4 := by decide +kernel
  have := strnstr_of_append bytes hi (by omega) (by omega)
  unfold endOfHeaders at h
  rw [this] at h
  cases h

theorem headWrites_flatten (addr : ℕ) (buffer : List UInt8) (hdrlen v : ℕ) :
    (headWrites addr buffer hdrlen v).flatten =
      leBytes 8 (msgLen hdrlen v) ++ (leBytes 4 addr ++ [0] ++ buffer.take hdrlen) := by
  simp [headWrites]

theorem postlenLeft_eq (n left : ℕ) : postlenLeft n left = n - left := by
  unfold postlenLeft
  split <;> omega

/-- The header block has just been completed. -/
theorem Waiting.passed {bytes : List UInt8} {hdrlen v w msgid : ℕ} {type : ReqType}
    (h : Waiting conn t) (hend : endOfHeaders (t.chunks.flatten ++ bytes) = some hdrlen)
    (htype : requestType (t.chunks.flatten ++ bytes) = some type)
    (hv : requestPostlen type (t.chunks.flatten ++ bytes) = .ok (some v))
    (hc : conn' = { conn with
      requestType := some type, websiteSockfd := some w, msgid, postlen := v
      buffer := some (t.chunks.flatten ++ bytes) }) :
    Passed (afterBody conn' ((t.chunks.flatten ++ bytes).drop hdrlen))
      (t.add bytes ((headWrites conn.addr (t.chunks.flatten ++ bytes) hdrlen v).flatten ++
        (bodyWrites conn' ((t.chunks.flatten ++ bytes).drop hdrlen)).flatten))
      type hdrlen v (t.chunks.length + 1) (t.chunks.length + 1) := by
  have hle := hdrlen_le hend
  have hnew := endOfHeaders_new h.noEnd hend
  subst hc
  refine ⟨by simp [afterBody], rfl, Nat.le_refl _, by simp [Tape.add], ?_, ?_, ?_, ?_, ?_⟩
  · rw [Tape.upTo_add_all]; exact hend
  · rw [Tape.upTo_add_all]; exact htype
  · rw [Tape.upTo_add_all]; exact hv
  · -- the header and the rest of the read
    rw [Tape.upTo_add_all]
    show t.out ++ _ = _
    rw [h.out, headWrites_flatten]
    unfold bodyWrites
    by_cases hp : type = .post ∧ v ≠ 0
    · rw [if_pos (by exact ⟨congrArg some hp.1, hp.2⟩), if_pos hp]
      simp only [List.flatten_cons, List.flatten_nil, List.append_nil, List.nil_append,
        List.append_assoc, List.take_append_drop]
      rfl
    · rw [if_neg (by rintro ⟨he, hne⟩; exact hp ⟨Option.some.inj he, hne⟩), if_neg hp]
      simp [afterBody]
  · by_cases hp : type = .post ∧ v ≠ 0
    · -- the read may bring the whole body
      have hleft : bodyLeft { conn with
          requestType := some type, websiteSockfd := some w, msgid, postlen := v
          buffer := some (t.chunks.flatten ++ bytes) }
          ((t.chunks.flatten ++ bytes).drop hdrlen) =
          postlenLeft v ((t.chunks.flatten ++ bytes).drop hdrlen).length :=
        if_pos ⟨congrArg some hp.1, hp.2⟩
      rw [List.length_drop] at hleft
      have hlast : (t.add bytes ((headWrites conn.addr (t.chunks.flatten ++ bytes) hdrlen v).flatten ++
          (bodyWrites { conn with
            requestType := some type, websiteSockfd := some w, msgid, postlen := v
            buffer := some (t.chunks.flatten ++ bytes) }
            ((t.chunks.flatten ++ bytes).drop hdrlen)).flatten)).upTo (t.chunks.length + 1 - 1) =
          t.chunks.flatten := by
        rw [Nat.add_sub_cancel, Tape.upTo_add (Nat.le_refl _), Tape.upTo_all]
      rw [Tape.upTo_add_all, hlast]
      unfold afterBody
      simp only
      rw [hleft, postlenLeft_eq]
      by_cases hfull : hdrlen + v ≤ (t.chunks.flatten ++ bytes).length
      · left
        exact ⟨if_pos (by omega), fun _ _ => ⟨hfull, by omega⟩⟩
      · right
        rw [if_neg (by omega)]
        exact ⟨hp, by simp [Tape.add], by omega, by omega, trivial⟩
    · left
      refine ⟨?_, fun _ hp' => absurd hp' hp⟩
      -- a `GET` has no length
      have hv0 : v = 0 := by
        by_contra hne
        cases type with
        | get => cases hv; exact hne rfl
        | post => exact hp ⟨rfl, hne⟩
      have hleft : bodyLeft { conn with
          requestType := some type, websiteSockfd := some w, msgid, postlen := v
          buffer := some (t.chunks.flatten ++ bytes) }
          ((t.chunks.flatten ++ bytes).drop hdrlen) = v :=
        if_neg (by rintro ⟨-, hne⟩; exact hne hv0)
      unfold afterBody
      simp only
      rw [hleft, if_pos hv0]

/-- More of the body. -/
theorem Passed.more {bytes : List UInt8} {type : ReqType} {hdrlen v k₀ k : ℕ}
    (h : Passed conn t type hdrlen v k₀ k) (hne : conn.postlen ≠ allReceived)
    (hc : conn' = { conn with buffer := some (conn.buffer.getD [] ++ bytes) }) :
    Passed (afterBody conn' (conn.buffer.getD [] ++ bytes))
      (t.add bytes (bodyWrites conn' (conn.buffer.getD [] ++ bytes)).flatten)
      type hdrlen v k₀ (t.chunks.length + 1) := by
  obtain ⟨ha, -⟩ | ⟨hp, hk, hlt, hleft, hbuf⟩ := h.left
  · exact absurd ha hne
  subst hk
  rw [Tape.upTo_all] at hlt hleft
  have hh := h.hdrlen_le
  rw [Tape.upTo_all] at hh
  subst hc
  rw [hbuf]
  simp only [Option.getD_none, List.nil_append]
  have hcond : ({ conn with buffer := some bytes } : ConnData).requestType = some .post ∧
      ({ conn with buffer := some bytes } : ConnData).postlen ≠ 0 :=
    ⟨h.type_eq.trans (congrArg some hp.1), by show conn.postlen ≠ 0; omega⟩
  have hb : bodyWrites { conn with buffer := some bytes } bytes = [bytes] := if_pos hcond
  have hl : bodyLeft { conn with buffer := some bytes } bytes = postlenLeft conn.postlen bytes.length :=
    if_pos hcond
  have hk₀ := h.le₀
  refine ⟨h.website, h.type_eq, by omega, by simp [Tape.add], ?_, ?_, ?_, ?_, ?_⟩
  · rw [Tape.upTo_add hk₀]; exact h.ends
  · rw [Tape.upTo_add hk₀]; exact h.starts
  · rw [Tape.upTo_add hk₀]; exact h.length
  · rw [Tape.upTo_add_all, Tape.upTo_add hk₀, hb, if_pos hp]
    show t.out ++ _ = _
    rw [h.out, if_pos hp, Tape.upTo_all]
    simp [afterBody]
  · rw [Tape.upTo_add_all, Nat.add_sub_cancel, Tape.upTo_add (Nat.le_refl _), Tape.upTo_all]
    unfold afterBody
    simp only
    rw [hl, postlenLeft_eq]
    by_cases hfull : hdrlen + v ≤ (t.chunks.flatten ++ bytes).length
    · left
      rw [List.length_append] at hfull ⊢
      exact ⟨if_pos (by omega), fun _ _ => ⟨by omega, hlt⟩⟩
    · right
      rw [List.length_append] at hfull ⊢
      rw [if_neg (by omega)]
      exact ⟨hp, by simp [Tape.add], by omega, by omega, trivial⟩

/-- A read after the end of the request is not passed on. -/
theorem Passed.ignored {bytes : List UInt8} {b : Option (List UInt8)} {type : ReqType}
    {hdrlen v k₀ k : ℕ} (h : Passed conn t type hdrlen v k₀ k) (ha : conn.postlen = allReceived) :
    Passed { conn with buffer := b } (t.add bytes []) type hdrlen v k₀ k := by
  have hk := h.le
  have hk₀ := Nat.le_trans h.le₀ hk
  refine ⟨h.website, h.type_eq, h.le₀, by simp [Tape.add]; omega, ?_, ?_, ?_, ?_, Or.inl ⟨ha, ?_⟩⟩
  · rw [Tape.upTo_add hk₀]; exact h.ends
  · rw [Tape.upTo_add hk₀]; exact h.starts
  · rw [Tape.upTo_add hk₀]; exact h.length
  · rw [Tape.upTo_add hk₀, Tape.upTo_add hk]
    show t.out ++ [] = _
    rw [List.append_nil]
    exact h.out
  · rw [Tape.upTo_add hk, Tape.upTo_add (by omega)]
    exact fun hv hp => h.received ha hv hp

/-- **What the tape holds is kept by a read.** -/
theorem Progress.read {fd : ℕ} {r : RwRes} {bytes out : List UInt8}
    (h : ∀ conn, d.connections fd = some conn → Progress conn t)
    (hr : d.exreadT fd r = .ok (d', bytes, out)) (hc : d'.connections fd = some conn') :
    Progress conn' (t.add bytes out) := by
  obtain ⟨conn, hconn, -, hcases⟩ := (exreadT_ok hr).2 conn' hc
  simp only at hcases
  obtain ⟨ha, rfl, rfl⟩ | ⟨-, hw, hend, rfl, rfl⟩ |
    ⟨-, hw, hdrlen, type, w, msgid, v, hend, htype, hv, rfl, rfl⟩ | ⟨hne, hw, rfl, rfl⟩ := hcases
  · obtain hwait | ⟨type, hdrlen, v, k₀, k, hp⟩ := h conn hconn
    · rw [hwait.postlen] at ha; cases ha
    · exact Or.inr ⟨type, hdrlen, v, k₀, k, hp.ignored ha⟩
  · obtain hwait | ⟨type, hdrlen, v, k₀, k, hp⟩ := h conn hconn
    · have hb : (t.add bytes []).chunks.flatten = conn.buffer.getD [] ++ bytes := by
        rw [hwait.buffer]
        simp [Tape.add]
      refine Or.inl ⟨hw, ?_, hwait.postlen, ?_, ?_⟩
      · show t.out ++ [] = []
        rw [hwait.out]; rfl
      · rw [hb]; rfl
      · rw [hb]; exact hend
    · exact absurd hw hp.website
  · obtain hwait | ⟨type, hdrlen, v, k₀, k, hp⟩ := h conn hconn
    · rw [hwait.buffer] at hend htype hv ⊢
      exact Or.inr ⟨_, _, _, _, _, hwait.passed hend htype hv rfl⟩
    · exact absurd hw hp.website
  · obtain hwait | ⟨type, hdrlen, v, k₀, k, hp⟩ := h conn hconn
    · exact absurd hwait.website hw
    · exact Or.inr ⟨_, _, _, _, _, hp.more hne rfl⟩

/-- Every connection of the daemon and its tape. -/
def Tapes (s : Daemon × (ℕ → Tape)) : Prop :=
  ∀ i conn, s.1.connections i = some conn → Progress conn (s.2 i)

theorem Tapes.step {s s' : Daemon × (ℕ → Tape)} {a : Callback} (h : Tapes s)
    (hs : stepT s a = .ok s') : Tapes s' := by
  -- without a connection the tape is blank
  have hkeep : ∀ i conn, s.1.connections i = some conn →
      Progress conn (if (s.1.connections i).isNone then {} else s.2 i) := by
    intro i conn hc
    rw [if_neg (by rw [hc]; simp)]
    exact h i conn hc
  unfold stepT at hs
  simp only at hs
  split at hs
  · rename_i fd r _
    obtain ⟨d, h₁, hs⟩ := bind_inv hs
    obtain ⟨⟨d₂, bytes, out⟩, h₂, hs⟩ := bind_inv hs
    cases hs
    have ht := callZs'_tabs h₁
    intro i conn hi
    by_cases he : i = fd
    · subst he
      simp only [Function.update_self]
      refine Progress.read (fun conn hc => ?_) h₂ hi
      rw [ht.connections] at hc
      exact hkeep i conn hc
    · simp only [Function.update_of_ne he]
      refine hkeep i conn ?_
      rw [← ht.connections, ← (exreadT_ok h₂).1 i he]
      exact hi
  · rename_i hnone
    obtain ⟨d, h₁, hs⟩ := bind_inv hs
    cases hs
    intro i conn hi
    obtain hsame | hgone | ⟨hn, conn₀, hnew, hfresh⟩ := step_conns h₁ hnone i
    · exact hkeep i conn (hsame.symm.trans hi)
    · rw [show d.connections i = some conn from hi] at hgone
      cases hgone
    · simp only [hn, Option.isNone_none, if_true]
      obtain rfl := Option.some.inj (hnew.symm.trans hi)
      exact hfresh.progress

/-- What `stepT` starts with. -/
def blank (d : Daemon) : Daemon × (ℕ → Tape) := (d, fun _ => {})

theorem Tapes.run {proxies : List (ℕ × ℤ × SockRes)} {d₀ : Daemon} {as : List Callback}
    {s : Daemon × (ℕ → Tape)} (h₀ : Daemon.start proxies .init = .ok d₀)
    (h : Run.run stepT (blank d₀) as = .ok s) : Tapes s := by
  have hinit : Tapes (blank d₀) := by
    intro i conn hi
    have hn : d₀.connections i = none := by rw [(start_tabs proxies _ _ h₀).connections]; rfl
    rw [show d₀.connections i = some conn from hi] at hn
    cases hn
  refine run_inv (C := fun _ _ => True) (fun s a s' hs _ hstep => hs.step hstep) as _ s hinit ?_ h
  exact Along.of_forall (P := fun _ => True) fun _ _ => trivial

/-! ## Requests -/

variable {q : Request}

/-- The header block ends with the empty line and holds no NUL. -/
theorem Request.head_spec (q : Request) : q.head.length ≤ packDataSize ∧ ∀ c ∈ q.head, c ≠ 0 := by
  obtain ⟨i, hi, hlen⟩ := Option.map_eq_some_iff.1 q.ends
  obtain ⟨hle, hp, -, hz⟩ := strnstr_spec hi
  have h4 : (ascii "\r\n\r\n").length = 4 := by decide +kernel
  refine ⟨by omega, fun c hc => ?_⟩
  have hlast : q.head.drop i = ascii "\r\n\r\n" := by
    refine (hp.eq_of_length ?_).symm
    rw [List.length_drop]
    omega
  rw [← List.take_append_drop i q.head, hlast, List.mem_append] at hc
  rcases hc with hc | hc
  · exact hz c hc
  · have hnul : ∀ c ∈ ascii "\r\n\r\n", c ≠ 0 := by decide +kernel
    exact hnul c hc

theorem requestType_append {s : List UInt8} {type : ReqType} (h : requestType s = some type)
    (t : List UInt8) : requestType (s ++ t) = some type := by
  unfold requestType at h ⊢
  split at h
  · rename_i hg
    rw [if_pos (startswith_append hg t)]
    exact h
  · rename_i hg
    split at h
    · rename_i hp
      have hl := (startswith_iff.1 hp).length_le
      rw [startswith_append_iff (Nat.le_trans (by decide) hl), if_neg hg,
        if_pos (startswith_append hp t)]
      exact h
    · cases h

/-- The number that `exread` reads is that of the header block alone. -/
theorem Request.postlen_eq (rest : List UInt8) (hp : q.type = .post) :
    requestPostlen .post (q.head ++ rest) =
      if 32 ≤ (lengthText q.head).length then .error .outOfBounds
      else .ok (some (strtoumax (lengthText q.head))) := by
  obtain ⟨before, digs, after, hhead, -, -, -⟩ := q.post_length hp
  obtain ⟨hle, hz⟩ := q.head_spec
  have hsplit : ascii "\r\nContent-Length: " = ascii "\r\n" ++ ascii "Content-Length: " := by
    decide +kernel
  have hcl : (ascii "Content-Length: ").length = 16 := by decide +kernel
  have hcr : (ascii "\r\n").length = 2 := by decide +kernel
  rw [hsplit] at hhead
  obtain ⟨i, j, hfind, hline⟩ := strnstr_field hhead hz
    (fun h => by rw [h] at hcl; cases hcl) (fun h => by rw [h] at hcr; cases hcr)
  rw [hcl] at hline
  have hj := strnstr_le hline
  have hi16 := strnstr_le hfind
  rw [hcr] at hj
  rw [hcl] at hi16
  have htext : lengthText q.head = (q.head.drop (i + 16)).take j := by
    unfold lengthText
    simp only [hfind, Option.getD_some, hline]
  have hlen : (lengthText q.head).length = j := by
    rw [htext, List.length_take]
    omega
  rw [List.length_drop] at hj
  have hbuf : strnstr (q.head ++ rest) (ascii "Content-Length: ") packDataSize = some i :=
    strnstr_append rest (strnstr_bound hfind (by rw [hcl]; omega))
  have hdrop : (q.head ++ rest).drop (i + 16) = q.head.drop (i + 16) ++ rest :=
    List.drop_append_of_le_length (by omega)
  have hrest : strnstr ((q.head ++ rest).drop (i + 16)) (ascii "\r\n") (packDataSize - (i + 16)) =
      some j := by
    rw [hdrop]
    exact strnstr_append rest (strnstr_bound hline (by rw [hcr]; omega))
  have htake : ((q.head ++ rest).drop (i + 16)).take j = lengthText q.head := by
    rw [hdrop, htext, List.take_append_of_le_length]
    rw [List.length_drop]
    omega
  unfold requestPostlen
  simp only [hbuf, hrest, hlen, htake]

/-- The header block that `exread` found is that of the request. -/
theorem Request.head_found {s more : List UInt8} {n : ℕ} (hs : s <+: q.head ++ more)
    (h : endOfHeaders s = some n) : n = q.head.length ∧ q.head <+: s := by
  have happ : ∀ {a : List UInt8} {m : ℕ} (b : List UInt8), endOfHeaders a = some m →
      endOfHeaders (a ++ b) = some m := by
    intro a m b ha
    obtain ⟨i, hi, rfl⟩ := Option.map_eq_some_iff.1 ha
    unfold endOfHeaders
    rw [strnstr_append b hi]
    rfl
  rcases Nat.le_total q.head.length s.length with hle | hle
  · have hpre : q.head <+: s := List.prefix_of_prefix_length_le (List.prefix_append _ _) hs hle
    refine ⟨?_, hpre⟩
    obtain ⟨b, rfl⟩ := hpre
    exact Option.some.inj (h.symm.trans (happ b q.ends))
  · obtain ⟨b, hb⟩ := List.prefix_of_prefix_length_le hs (List.prefix_append _ _) hle
    have hq := q.ends
    rw [← hb] at hq ⊢
    have hn := Option.some.inj ((happ b h).symm.trans hq)
    refine ⟨hn, ?_⟩
    have := hdrlen_le h
    have hb0 : b = [] := by
      rw [List.length_append] at hn
      exact List.eq_nil_of_length_eq_zero (by omega)
    rw [hb0, List.append_nil]

/-- A read runs over the first `n` bytes unless the reads up to the first `n` bytes end
there. -/
theorem noneOver_iff {n k : ℕ} (hn : n ≠ 0) (hlen : n ≤ (t.upTo k).length)
    (hlast : (t.upTo (k - 1)).length < n) : NoneOver t.chunks n ↔ (t.upTo k).length = n := by
  have hk : k - 1 + 1 = k := by
    cases k with
    | zero => exact absurd hlen (by simp [Tape.upTo]; omega)
    | succ k => rfl
  constructor
  · intro h
    have := h (k - 1) hlast
    rw [hk] at this
    exact Nat.le_antisymm this hlen
  · intro he j hj
    have hjk : j < k := by
      by_contra hge
      have := (t.upTo_mono (Nat.le_of_not_lt hge)).length_le
      have hj' : (t.upTo j).length < n := hj
      omega
    have := (t.upTo_mono (Nat.succ_le_of_lt hjk)).length_le
    rw [he] at this
    exact this

theorem msgLen_eq {a b : ℕ} (ha : a < sizeMod) (hb : b < sizeMod) (h : leBytes 8 a = leBytes 8 b) :
    a = b := by
  have hnum := congrArg leNum h
  rw [leNum_leBytes, leNum_leBytes] at hnum
  have hpow : Nat.pow 256 8 = sizeMod := rfl
  rw [hpow, Nat.mod_eq_of_lt ha, Nat.mod_eq_of_lt hb] at hnum
  exact hnum

/-- As long as `exread` waits for the empty line, the header block is not complete. -/
theorem Request.waiting_short (q : Request) {more : List UInt8} (hw : Waiting conn t)
    (hin : t.chunks.flatten <+: q.head ++ more) : t.chunks.flatten.length < q.head.length := by
  by_contra hge
  have hpre : q.head <+: t.chunks.flatten :=
    List.prefix_of_prefix_length_le (List.prefix_append _ _) hin (Nat.le_of_not_lt hge)
  obtain ⟨b, hb⟩ := hpre
  obtain ⟨i, hi, -⟩ := Option.map_eq_some_iff.1 q.ends
  have hn := hw.noEnd
  rw [← hb] at hn
  unfold endOfHeaders at hn
  rw [strnstr_append b hi] at hn
  cases hn

/-- The header block that was passed on is that of the request. -/
theorem Request.passed_head (q : Request) {more : List UInt8} {type : ReqType} {hdrlen v k₀ k : ℕ}
    (hp : Passed conn t type hdrlen v k₀ k) (hin : t.chunks.flatten <+: q.head ++ more) :
    hdrlen = q.head.length ∧ type = q.type ∧ ¬t.chunks.flatten.length < q.head.length ∧
      ∃ rest, q.head ++ rest = t.upTo k₀ := by
  have hup : t.upTo k₀ <+: q.head ++ more :=
    (List.IsPrefix.flatten (List.take_prefix k₀ t.chunks)).trans hin
  obtain ⟨rfl, rest, hrest⟩ := q.head_found hup hp.ends
  have htype : type = q.type := by
    have := requestType_append q.starts rest
    rw [hrest] at this
    exact Option.some.inj (hp.starts.symm.trans this)
  refine ⟨rfl, htype, ?_, rest, hrest⟩
  have hle := (t.upTo_mono hp.le₀).length_le
  have hk := (t.upTo_mono hp.le).length_le
  rw [t.upTo_all] at hk
  have hr : (q.head ++ rest).length = (t.upTo k₀).length := by rw [hrest]
  rw [List.length_append] at hr
  omega

/-- A `POST` whose length does not fit has passed nothing on: its header block is not
complete. -/
theorem Request.Overlong.short {more : List UInt8} (ho : q.Overlong) (h : Progress conn t)
    (hin : t.chunks.flatten <+: q.head ++ more) : t.chunks.flatten.length < q.head.length := by
  obtain hw | ⟨type, hdrlen, v, k₀, k, hp⟩ := h
  · exact q.waiting_short hw hin
  · obtain ⟨-, rfl, -, rest, hrest⟩ := q.passed_head hp hin
    have hv := hp.length
    rw [← hrest, ho.1, Request.postlen_eq rest ho.1, if_pos ho.2] at hv
    cases hv

/-- Once the website of such a request is found, `exread` does not come to an end. -/
theorem Request.Overlong.stops (ho : q.Overlong) (d : Daemon) (fd : ℕ) (site : Website)
    (conn : ConnData) (rest : List UInt8) (d' : Daemon) :
    d.exreadOpen fd site conn .post (q.head ++ rest) q.head.length ≠ .ok d' := by
  intro h
  obtain ⟨⟨d₁, msgid⟩, -, h⟩ := bind_inv h
  obtain ⟨d₂, -, h⟩ := bind_inv h
  obtain ⟨postlen, hpost, -⟩ := bind_inv h
  rw [Request.postlen_eq rest ho.1, if_pos ho.2] at hpost
  cases hpost

/-- **The framing of one connection.** -/
theorem Request.framed_iff {more : List UInt8} (h : Progress conn t)
    (hin : t.chunks.flatten <+: q.head ++ q.body ++ more) :
    q.Framed conn t.out ↔ q.Exact t.chunks := by
  rw [List.append_assoc] at hin
  have hsmall := q.small
  have hpay : (q.payload conn.addr).length = q.head.length + q.body.length + 5 := by
    simp only [Request.payload, List.length_append, leBytes_length, List.length_singleton]
    omega
  obtain hw | ⟨type, hdrlen, v, k₀, k, hp⟩ := h
  · -- nothing is passed on before the header block is complete
    have hshort := q.waiting_short hw hin
    refine ⟨fun _ => Or.inl hshort, fun _ => ⟨Or.inl hw.out, fun ha => ?_⟩⟩
    rw [hw.postlen] at ha
    cases ha
  · have hup : ∀ j, t.upTo j <+: q.head ++ (q.body ++ more) :=
      fun j => (List.IsPrefix.flatten (List.take_prefix j t.chunks)).trans hin
    obtain ⟨rfl, rfl, hlong, rest, hrest⟩ := q.passed_head hp hin
    have hv := hp.length
    have hout := hp.out
    rw [← hrest, List.take_left' rfl] at hout
    rw [← hrest] at hv
    cases hq : q.type with
    | get =>
      -- there is no body, and the length is 0
      rw [hq] at hv
      cases hv
      have hbody := q.get_body hq
      have hdata : t.out = leBytes 8 (q.payload conn.addr).length ++ q.payload conn.addr := by
        rw [hout, if_neg (fun hc => hc.2 rfl), hpay, hbody, msgLen, Nat.mod_eq_of_lt (by omega)]
        simp [Request.payload, hbody]
      exact ⟨fun _ => Or.inr (Or.inl hq),
        fun _ => ⟨Or.inr ⟨_, hdata, List.prefix_rfl⟩, fun _ => hdata⟩⟩
    | post =>
      rw [hq, Request.postlen_eq rest hq] at hv
      have h32 : (lengthText q.head).length < 32 := by
        by_contra hge
        rw [if_pos (Nat.le_of_not_lt hge)] at hv
        cases hv
      rw [if_neg (Nat.not_le_of_lt h32)] at hv
      have hvt : v = strtoumax (lengthText q.head) := by
        cases hv
        rfl
      have hvlt : v < sizeMod := by rw [hvt]; exact strtoumax_lt _
      have hn : ∀ j, (t.upTo j).length ≤ q.head.length + q.body.length →
          t.upTo j <+: q.head ++ q.body := by
        intro j hj
        have hj' := hup j
        rw [← List.append_assoc] at hj'
        exact List.prefix_of_prefix_length_le hj' (List.prefix_append _ _)
          (by rw [List.length_append]; exact hj)
      constructor
      · rintro ⟨hnil | ⟨data, hdata, hpre⟩, -⟩
        · rw [hnil] at hout
          have := congrArg List.length hout
          rw [List.length_append, leBytes_length] at this
          simp at this
        · -- the announced length gives `v`, and what was passed on is not longer
          obtain ⟨hlen, hrest'⟩ := List.append_inj (hout.symm.trans hdata)
            (by rw [leBytes_length, leBytes_length])
          have hmsg := msgLen_eq (Nat.mod_lt _ (by decide)) (by omega) hlen
          rw [hpay] at hmsg
          have hvL : v = q.body.length := by
            unfold sizeMod at hmsg hsmall hvlt
            omega
          refine Or.inr (Or.inr ⟨h32, hvt.symm.trans hvL, ?_⟩)
          by_cases hb : q.body = []
          · exact Or.inl hb
          · right
            have hv0 : v ≠ 0 := by
              rw [hvL]
              exact fun h0 => hb (List.eq_nil_of_length_eq_zero h0)
            rw [if_pos ⟨hq, hv0⟩] at hrest'
            rw [← hrest'] at hpre
            have hle : (t.upTo k).length ≤ q.head.length + q.body.length := by
              have := hpre.length_le
              rw [hpay] at this
              simp only [List.length_append, leBytes_length, List.length_singleton] at this
              omega
            rw [← hvL] at hle ⊢
            obtain ⟨ha, hl⟩ | ⟨-, hk, hlt, -, -⟩ := hp.left
            · obtain ⟨h1, h2⟩ := hl (by omega) ⟨hq, hv0⟩
              exact (noneOver_iff (by omega) h1 h2).2 (Nat.le_antisymm hle h1)
            · intro j _
              have := (List.IsPrefix.flatten (List.take_prefix (j + 1) t.chunks)).length_le
              rw [hk, t.upTo_all] at hlt
              omega
      · rintro (hs | hg | ⟨-, hlen, hbody⟩)
        · exact absurd hs hlong
        · rw [hq] at hg
          cases hg
        · have hvL : v = q.body.length := hvt.trans hlen
          have hmsg : msgLen q.head.length v = (q.payload conn.addr).length := by
            rw [hpay, msgLen, Nat.mod_eq_of_lt (by omega)]
            omega
          rw [hmsg] at hout
          by_cases hb : q.body = []
          · have hdata : t.out = leBytes 8 (q.payload conn.addr).length ++ q.payload conn.addr := by
              rw [hout, if_neg (fun hc => hc.2 (by rw [hvL, hb]; rfl))]
              simp [Request.payload, hb]
            exact ⟨Or.inr ⟨_, hdata, List.prefix_rfl⟩, fun _ => hdata⟩
          · have hv0 : v ≠ 0 := by
              rw [hvL]
              exact fun h0 => hb (List.eq_nil_of_length_eq_zero h0)
            have hover := hbody.resolve_left hb
            rw [if_pos ⟨hq, hv0⟩] at hout
            rw [← hvL] at hover
            -- a part of the payload, as long as not more than that is passed on
            have hpart : t.upTo k <+: q.head ++ q.body → leBytes 4 conn.addr ++ [0] ++ t.upTo k <+:
                q.payload conn.addr := by
              intro hpre
              unfold Request.payload
              rw [List.append_assoc _ q.head]
              exact (List.prefix_append_right_inj _).2 hpre
            by_cases ha : conn.postlen = allReceived
            · obtain ⟨h1, h2⟩ := hp.received ha (by omega) ⟨hq, hv0⟩
              have he := (noneOver_iff (by omega) h1 h2).1 hover
              have hall : t.upTo k = q.head ++ q.body :=
                (hn k (by omega)).eq_of_length (by rw [List.length_append]; omega)
              refine ⟨Or.inr ⟨_, hout, hpart (hn k (by omega))⟩, fun _ => ?_⟩
              rw [hout, hall]
              simp [Request.payload]
            · obtain ⟨ha', -⟩ | ⟨-, -, hlt, -, -⟩ := hp.left
              · exact absurd ha' ha
              · exact ⟨Or.inr ⟨_, hout, hpart (hn k (by omega))⟩, fun ha' => absurd ha' ha⟩

/-- **The framing of a request is exact when no read runs over its body and its length reads
as decimal, and only then**: after any run, for any connection and any request that the bytes
read from it are part of. A length that does not fit `postlenbuf` is not framed at all: no
state is reached in which its header block is complete, as `exread` stops once it has the
website. -/
theorem framing_exact_iff {proxies : List (ℕ × ℤ × SockRes)} {d₀ d : Daemon} {as : List Callback}
    {tapes : ℕ → Tape} {fd : ℕ} {conn : ConnData} {more : List UInt8}
    (h₀ : Daemon.start proxies .init = .ok d₀) (h : run stepT (blank d₀) as = .ok (d, tapes))
    (hc : d.connections fd = some conn) (q : Request)
    (hin : (tapes fd).chunks.flatten <+: q.head ++ q.body ++ more) :
    (q.Framed conn (tapes fd).out ↔ q.Exact (tapes fd).chunks) ∧
      (q.Overlong → (tapes fd).chunks.flatten.length < q.head.length ∧
        ∀ (d₁ : Daemon) (site : Website) (conn₁ : ConnData) (rest : List UInt8) (d₂ : Daemon),
          d₁.exreadOpen fd site conn₁ .post (q.head ++ rest) q.head.length ≠ .ok d₂) := by
  have hp := Tapes.run h₀ h fd conn hc
  refine ⟨Request.framed_iff hp hin, fun ho => ⟨?_, fun d₁ => ho.stops d₁ fd⟩⟩
  rw [List.append_assoc] at hin
  exact ho.short hp hin

/-- A `POST` of five bytes. -/
def postHello : Request where
  type := .post
  head := ascii "POST /x HTTP/1.1\r\nHost: a\r\nContent-Length: 5\r\n\r\n"
  body := ascii "hello"
  starts := by decide +kernel
  ends := by decide +kernel
  get_body := fun h => by cases h
  post_length := fun _ => ⟨ascii "POST /x HTTP/1.1\r\nHost: a", ascii "5", ascii "\r\n",
    by decide +kernel, by decide +kernel, by decide +kernel, by decide +kernel⟩
  small := by decide +kernel

/-- A client of a website, on descriptor 6, sends the request and `more` in one write. -/
def posts (more : String) : List Callback :=
  connects 3 4 ++ starts 4 1 "http://a" "0.0.0.0" (.ok 5) ++ connects 5 6 ++
    [.zfdRead 6 (.error .eagain) (.bytes (postHello.head ++ postHello.body ++ ascii more)) .wantRead,
      .zsRead 6 .wantRead []]

/-- The connection and its tape after the callbacks. -/
def taped (as : List Callback) : Option (Daemon × Daemon × (ℕ → Tape)) :=
  (Daemon.start oneProxy .init).toOption.bind fun d₀ =>
    (run stepT (blank d₀) as).toOption.map fun s => (d₀, s.1, s.2)

theorem taped_map {β : Type} {as : List Callback} {f : Daemon × Daemon × (ℕ → Tape) → β} {v : β}
    (h : (taped as).map f = some v) : ∃ d₀ d tapes, Daemon.start oneProxy .init = .ok d₀ ∧
      run stepT (blank d₀) as = .ok (d, tapes) ∧ f (d₀, d, tapes) = v := by
  obtain ⟨⟨d₀, d, tapes⟩, hr, hv⟩ := Option.map_eq_some_iff.1 h
  unfold taped at hr
  obtain ⟨x, hx, hr⟩ := Option.bind_eq_some_iff.1 hr
  obtain ⟨y, hy, hr⟩ := Option.map_eq_some_iff.1 hr
  cases hr
  exact ⟨_, _, _, ok_of_toOption hx, ok_of_toOption hy, hv⟩

theorem framing_exact_post : ∃ d₀ d tapes conn, Daemon.start oneProxy .init = .ok d₀ ∧
    run stepT (blank d₀) (posts "") = .ok (d, tapes) ∧ d.connections 6 = some conn ∧
    conn.postlen = allReceived ∧ postHello.Framed conn (tapes 6).out := by
  have hs : ((taped (posts "")).map fun p =>
      ((p.2.1.connections 6).map (·.postlen), (p.2.2 6).chunks)) =
      some (some allReceived, [postHello.head ++ postHello.body]) := by
    decide +kernel
  obtain ⟨d₀, d, tapes, h₀, h, hv⟩ := taped_map hs
  rw [Prod.mk.injEq] at hv
  obtain ⟨conn, hc, hp⟩ := Option.map_eq_some_iff.1 hv.1
  refine ⟨d₀, d, tapes, conn, h₀, h, hc, hp, ?_⟩
  have hin : (tapes 6).chunks.flatten <+: postHello.head ++ postHello.body ++ [] := by
    rw [show (tapes 6).chunks = _ from hv.2]
    simp
  refine (framing_exact_iff h₀ h hc postHello hin).1.2 ?_
  rw [show (tapes 6).chunks = _ from hv.2]
  refine Or.inr (Or.inr ⟨by decide +kernel, by decide +kernel, Or.inr fun k _ => ?_⟩)
  have := (List.IsPrefix.flatten (List.take_prefix (k + 1)
    [postHello.head ++ postHello.body])).length_le
  rw [List.flatten_singleton, List.length_append] at this
  exact this

/-- Three bytes too many. -/
theorem framing_overrun : ∃ d₀ d tapes conn, Daemon.start oneProxy .init = .ok d₀ ∧
    run stepT (blank d₀) (posts "XYZ") = .ok (d, tapes) ∧ d.connections 6 = some conn ∧
    (tapes 6).chunks = [postHello.head ++ postHello.body ++ ascii "XYZ"] ∧
    (tapes 6).out.length = 8 + (postHello.payload conn.addr).length + 3 ∧
    ¬postHello.Framed conn (tapes 6).out := by
  have hs : ((taped (posts "XYZ")).map fun p =>
      ((p.2.1.connections 6).map (·.addr), (p.2.2 6).chunks, (p.2.2 6).out)) =
      some (some loopback, [postHello.head ++ postHello.body ++ ascii "XYZ"],
        leBytes 8 58 ++ postHello.payload loopback ++ ascii "XYZ") := by
    decide +kernel
  obtain ⟨d₀, d, tapes, h₀, h, hv⟩ := taped_map hs
  rw [Prod.mk.injEq, Prod.mk.injEq] at hv
  obtain ⟨conn, hc, ha⟩ := Option.map_eq_some_iff.1 hv.1
  refine ⟨d₀, d, tapes, conn, h₀, h, hc, hv.2.1, ?_, ?_⟩
  · rw [show (tapes 6).out = _ from hv.2.2, show conn.addr = _ from ha]
    decide +kernel
  · rintro ⟨hnil | ⟨data, hdata, hpre⟩, -⟩
    · have hlen := congrArg List.length ((show (tapes 6).out = _ from hv.2.2).symm.trans hnil)
      revert hlen
      decide +kernel
    · have hle := hpre.length_le
      have hlen := congrArg List.length ((show (tapes 6).out = _ from hv.2.2).symm.trans hdata)
      have hdl : ∀ n, (leBytes 8 n ++ data).length = 8 + data.length := by
        intro n
        rw [List.length_append, leBytes_length]
      rw [hdl] at hlen
      rw [show conn.addr = _ from ha] at hle
      have h1 : (leBytes 8 58 ++ postHello.payload loopback ++ ascii "XYZ").length = 69 := by
        decide +kernel
      have h2 : (postHello.payload loopback).length = 58 := by decide +kernel
      omega

end Zimr
