import Zimr.Proof.Halves

/-!
# Ids on the wire

`Way` is what one direction knows about ids: the frames one side has committed to the
wire and the two tables they are looked up in. An id is reused as soon as its slot is
free, so an id alone does not name an object; the order of the frames does.

* `Way.drop`, `Way.append`, `Way.update`, `Way.update_other` — what a step does to it
* `Way.insert`, `Way.insert_other` — a new object at one side
-/

namespace Zimr

variable {wire wire' : List Frame} {msgs msgs' omsgs omsgs' : ℕ → Option Msg}
  {log log' olog olog' : ℕ → EndLog} {next onext j x : ℕ} {m n : Msg} {o : Option Msg}

/-- One direction: `wire`, `msgs`, `log` and `next` of the side that sends, `omsgs`, `olog`
and `onext` of the side that reads. -/
structure Way (wire : List Frame) (msgs omsgs : ℕ → Option Msg) (log olog : ℕ → EndLog)
    (next onext : ℕ) : Prop where
  frame : ∀ f ∈ wire, f.owner < next ∧ f.msgid = (log f.owner).wid
  live : ∀ j m, msgs j = some m → m.status.disconnected = false → m.wireId = (log m.addr).wid
  /-- Who opens a msg sends the negated number of its slot. -/
  opener : ∀ j m, msgs j = some m → (log m.addr).wid < 0 → (log m.addr).wid = -(j : ℤ)
  wid_ne : ∀ x, x < next → (log x).wid ≠ 0
  peer : ∀ x y, x < next → (log x).peer = some y →
    y < onext ∧ (olog y).peer = some x ∧ (olog y).wid = -(log x).wid
  born : ∀ x, x < next → 0 < (log x).wid → (log x).peer ≠ none
  /-- Of two objects opened in one slot the older one's frames come first. -/
  sorted : wire.Pairwise fun f g => f.msgid = g.msgid → f.msgid < 0 → f.owner ≤ g.owner
  slot : ∀ f ∈ wire, ∀ (j : ℕ) m, f.msgid = -(j : ℤ) → msgs j = some m → f.owner ≤ m.addr
  older : ∀ x y, x < y → y < next → (log x).wid = (log y).wid → (log x).wid < 0 →
    ∀ j m, msgs j = some m → m.addr ≠ x
  /-- An entry of the reader's `imsgid_map` is not newer than the frames that use it. -/
  mapped : ∀ j m x, omsgs j = some m → m.imsgid ≠ 0 → (olog m.addr).peer = some x →
    (∀ f ∈ wire, f.msgid = -(m.imsgid : ℤ) → x ≤ f.owner) ∧
      ∀ n, msgs m.imsgid = some n → x ≤ n.addr

theorem Way.drop (h : Way wire msgs omsgs log olog next onext) (hw : wire'.Sublist wire) :
    Way wire' msgs omsgs log olog next onext where
  frame := fun f hf => h.frame f (hw.subset hf)
  live := h.live
  opener := h.opener
  wid_ne := h.wid_ne
  peer := h.peer
  born := h.born
  sorted := h.sorted.sublist hw
  slot := fun f hf => h.slot f (hw.subset hf)
  older := h.older
  mapped := fun j m x hj hi hp =>
    ⟨fun f hf => (h.mapped j m x hj hi hp).1 f (hw.subset hf), (h.mapped j m x hj hi hp).2⟩

/-- The history that ids do not depend on. -/
theorem Way.relog (h : Way wire msgs omsgs log olog next onext)
    (hl : ∀ x, (log' x).peer = (log x).peer ∧ (log' x).wid = (log x).wid)
    (ho : ∀ x, (olog' x).peer = (olog x).peer ∧ (olog' x).wid = (olog x).wid) :
    Way wire msgs omsgs log' olog' next onext := by
  refine ⟨?_, ?_, ?_, ?_, ?_, ?_, h.sorted, h.slot, ?_, ?_⟩
  · intro f hf; rw [(hl _).2]; exact h.frame f hf
  · intro j m hj; rw [(hl _).2]; exact h.live j m hj
  · intro j m hj; rw [(hl _).2]; exact h.opener j m hj
  · intro x; rw [(hl _).2]; exact h.wid_ne x
  · intro x y; rw [(hl _).1, (hl _).2, (ho _).1, (ho _).2]; exact h.peer x y
  · intro x; rw [(hl _).1, (hl _).2]; exact h.born x
  · intro x y; rw [(hl _).2, (hl _).2]; exact h.older x y
  · intro j m x; rw [(ho _).1]; exact h.mapped j m x

/-- A live msg commits frames. -/
theorem Way.append {F : List Frame} (h : Way wire msgs omsgs log olog next onext)
    (hj : msgs j = some m) (ha : m.addr < next)
    (hF : ∀ f ∈ F, f.owner = m.addr ∧ f.msgid = (log m.addr).wid) :
    Way (wire ++ F) msgs omsgs log olog next onext := by
  refine ⟨?_, h.live, h.opener, h.wid_ne, h.peer, h.born, ?_, ?_, h.older, ?_⟩
  · intro f hf
    rcases List.mem_append.1 hf with hf | hf
    · exact h.frame f hf
    · obtain ⟨h1, h2⟩ := hF f hf
      rw [h1]; exact ⟨ha, h2⟩
  · rw [List.pairwise_append]
    refine ⟨h.sorted, ?_, ?_⟩
    · refine List.pairwise_of_forall_mem_list fun f hf g hg _ _ => ?_
      rw [(hF f hf).1, (hF g hg).1]
    · intro f hf g hg he hneg
      rw [(hF g hg).1]
      have hw := (hF g hg).2
      have hid : f.msgid = -(j : ℤ) := by
        rw [he, hw]; exact h.opener j m hj (by rw [← hw, ← he]; exact hneg)
      exact h.slot f hf j m hid hj
  · intro f hf i n hi hn
    rcases List.mem_append.1 hf with hf | hf
    · exact h.slot f hf i n hi hn
    · obtain ⟨h1, h2⟩ := hF f hf
      rw [h1]
      rw [h2] at hi
      by_cases hneg : (log m.addr).wid < 0
      · have hji : i = j := by
          have := h.opener j m hj hneg
          omega
        subst hji; rw [hj] at hn; cases hn; exact le_rfl
      · have := h.wid_ne m.addr ha
        omega
  · intro i n x hi hne hp
    obtain ⟨h1, h2⟩ := h.mapped i n x hi hne hp
    refine ⟨fun f hf hid => ?_, h2⟩
    rcases List.mem_append.1 hf with hf | hf
    · exact h1 f hf hid
    · obtain ⟨h3, h4⟩ := hF f hf
      rw [h3]
      have hneg : (log m.addr).wid < 0 := by rw [← h4, hid]; omega
      have hji := h.opener j m hj hneg
      rw [h4] at hid
      have hji : n.imsgid = j := by omega
      exact h2 m (by rw [hji]; exact hj)

/-- The sender's object in slot `j` changes or goes. -/
theorem Way.update (h : Way wire msgs omsgs log olog next onext) (hj : msgs j = some m)
    (ho : ∀ n, o = some n → n.addr = m.addr ∧
      (n.status.disconnected = false → m.status.disconnected = false ∧ n.wireId = m.wireId)) :
    Way wire (Function.update msgs j o) omsgs log olog next onext := by
  refine ⟨h.frame, ?_, ?_, h.wid_ne, h.peer, h.born, h.sorted, ?_, ?_, ?_⟩
  · intro i n hi hd
    rcases update_some hi with ⟨rfl, hn⟩ | ⟨-, hi⟩
    · obtain ⟨ha, hw⟩ := ho n hn
      rw [ha, (hw hd).2]; exact h.live _ m hj (hw hd).1
    · exact h.live i n hi hd
  · intro i n hi
    rcases update_some hi with ⟨rfl, hn⟩ | ⟨-, hi⟩
    · rw [(ho n hn).1]; exact h.opener _ m hj
    · exact h.opener i n hi
  · intro f hf i n hid hi
    rcases update_some hi with ⟨rfl, hn⟩ | ⟨-, hi⟩
    · rw [(ho n hn).1]; exact h.slot f hf _ m hid hj
    · exact h.slot f hf i n hid hi
  · intro x y hxy hy he hneg i n hi
    rcases update_some hi with ⟨rfl, hn⟩ | ⟨-, hi⟩
    · rw [(ho n hn).1]; exact h.older x y hxy hy he hneg _ m hj
    · exact h.older x y hxy hy he hneg i n hi
  · intro i n x hi hne hp
    obtain ⟨h1, h2⟩ := h.mapped i n x hi hne hp
    refine ⟨h1, fun n' hn' => ?_⟩
    rcases update_some hn' with ⟨he, hn⟩ | ⟨-, hn'⟩
    · rw [(ho n' hn).1]; exact h2 m (by rw [he]; exact hj)
    · exact h2 n' hn'

/-- The reader's object in slot `j` changes or goes. -/
theorem Way.update_other (h : Way wire msgs omsgs log olog next onext) (hj : omsgs j = some m)
    (ho : ∀ n, o = some n → n.addr = m.addr ∧ (n.imsgid ≠ 0 → n.imsgid = m.imsgid)) :
    Way wire msgs (Function.update omsgs j o) log olog next onext := by
  refine ⟨h.frame, h.live, h.opener, h.wid_ne, h.peer, h.born, h.sorted, h.slot, h.older, ?_⟩
  intro i n x hi hne hp
  rcases update_some hi with ⟨-, hn⟩ | ⟨-, hi⟩
  · obtain ⟨ha, him⟩ := ho n hn
    rw [ha] at hp
    have him := him hne
    rw [him] at hne ⊢
    exact h.mapped j m x hj hne hp
  · exact h.mapped i n x hi hne hp

/-! ## New objects -/

/-- The sender makes an object in the free slot `j`. -/
theorem Way.insert (h : Way wire msgs omsgs log olog next onext) (hs : Slots msgs next)
    (hos : Slots omsgs onext) (hj : msgs j = none) (haddr : n.addr = next)
    (hlog : ∀ x, x < next → log' x = log x) (hwid : n.wireId = (log' next).wid)
    (hne : (log' next).wid ≠ 0) (hopen : (log' next).wid < 0 → (log' next).wid = -(j : ℤ))
    (hpeer : ∀ y, (log' next).peer = some y →
      y < onext ∧ (olog' y).peer = some next ∧ (olog' y).wid = -(log' next).wid)
    (hborn : 0 < (log' next).wid → (log' next).peer ≠ none)
    (holog : ∀ y, (olog y).peer ≠ none → olog' y = olog y)
    (hmap : ∀ i m, omsgs i = some m → m.imsgid ≠ 0 → (olog' m.addr).peer = (olog m.addr).peer)
    (hold : ∀ a x, a < onext → (olog a).peer = some x → x < next) :
    Way wire (Function.update msgs j (some n)) omsgs log' olog' (next + 1) onext := by
  have hcase : ∀ x, x < next + 1 → x = next ∨ x < next := fun x hx => by omega
  refine ⟨?_, ?_, ?_, ?_, ?_, ?_, h.sorted, ?_, ?_, ?_⟩
  · intro f hf
    obtain ⟨h1, h2⟩ := h.frame f hf
    rw [hlog _ h1]; exact ⟨by omega, h2⟩
  · intro i m hi hd
    rcases update_some hi with ⟨-, he⟩ | ⟨-, hi⟩
    · cases he; rw [haddr]; exact hwid
    · rw [hlog _ (hs.addr _ _ hi)]; exact h.live i m hi hd
  · intro i m hi
    rcases update_some hi with ⟨rfl, he⟩ | ⟨-, hi⟩
    · cases he; rw [haddr]; exact hopen
    · rw [hlog _ (hs.addr _ _ hi)]; exact h.opener i m hi
  · intro x hx
    rcases hcase x hx with rfl | hx
    · exact hne
    · rw [hlog x hx]; exact h.wid_ne x hx
  · intro x y hx hp
    rcases hcase x hx with rfl | hx
    · exact hpeer y hp
    · rw [hlog x hx] at hp ⊢
      obtain ⟨h1, h2, h3⟩ := h.peer x y hx hp
      rw [holog y (by rw [h2]; simp)]
      exact ⟨h1, h2, h3⟩
  · intro x hx
    rcases hcase x hx with rfl | hx
    · exact hborn
    · rw [hlog x hx]; exact h.born x hx
  · intro f hf i m hid hi
    rcases update_some hi with ⟨-, he⟩ | ⟨-, hi⟩
    · cases he; rw [haddr]; exact (h.frame f hf).1.le
    · exact h.slot f hf i m hid hi
  · intro x y hxy hy he hneg i m hi
    rcases update_some hi with ⟨-, he'⟩ | ⟨-, hi⟩
    · cases he'; omega
    · rcases hcase y hy with rfl | hy
      · -- an older object of the slot would still be in it
        rintro rfl
        rw [hlog _ hxy] at he hneg
        have h1 := h.opener i m hi hneg
        have h2 := hopen (by rw [← he]; exact hneg)
        have hij : i = j := by omega
        rw [hij, hj] at hi; cases hi
      · rw [hlog _ hy, hlog x (by omega)] at he
        rw [hlog x (by omega)] at hneg
        exact h.older x y hxy hy he hneg i m hi
  · intro i m x hi hne' hp
    rw [hmap i m hi hne'] at hp
    obtain ⟨h1, h2⟩ := h.mapped i m x hi hne' hp
    refine ⟨h1, fun n' hn' => ?_⟩
    rcases update_some hn' with ⟨-, he⟩ | ⟨-, hn'⟩
    · cases he; rw [haddr]; exact (hold _ _ (hos.addr _ _ hi) hp).le
    · exact h2 n' hn'

/-- The reader makes an object in the free slot `j`. -/
theorem Way.insert_other (h : Way wire msgs omsgs log olog next onext)
    (hos : Slots omsgs onext) (haddr : n.addr = onext)
    (hlog : ∀ x, (log' x).wid = (log x).wid)
    (hpeer : ∀ x y, x < next → (log' x).peer = some y → (log x).peer = some y ∨
      (y = onext ∧ (olog' onext).peer = some x ∧ (olog' onext).wid = -(log x).wid))
    (hkeep : ∀ x, (log x).peer ≠ none → (log' x).peer ≠ none)
    (holog : ∀ y, y < onext → olog' y = olog y)
    (hmap : ∀ x, n.imsgid ≠ 0 → (olog' onext).peer = some x →
      (∀ f ∈ wire, f.msgid = -(n.imsgid : ℤ) → x ≤ f.owner) ∧
        ∀ n', msgs n.imsgid = some n' → x ≤ n'.addr) :
    Way wire msgs (Function.update omsgs j (some n)) log' olog' next (onext + 1) := by
  refine ⟨?_, ?_, ?_, ?_, ?_, ?_, h.sorted, h.slot, ?_, ?_⟩
  · intro f hf; rw [hlog]; exact h.frame f hf
  · intro i m hi; rw [hlog]; exact h.live i m hi
  · intro i m hi; rw [hlog]; exact h.opener i m hi
  · intro x; rw [hlog]; exact h.wid_ne x
  · intro x y hx hp
    rcases hpeer x y hx hp with hp | ⟨rfl, h1, h2⟩
    · obtain ⟨h1, h2, h3⟩ := h.peer x y hx hp
      rw [holog y h1, hlog]; exact ⟨by omega, h2, h3⟩
    · rw [hlog]; exact ⟨by omega, h1, h2⟩
  · intro x hx hw
    rw [hlog] at hw
    exact hkeep x (h.born x hx hw)
  · intro x y; rw [hlog, hlog]; exact h.older x y
  · intro i m x hi hne hp
    rcases update_some hi with ⟨-, he⟩ | ⟨-, hi⟩
    · cases he; rw [haddr] at hp; exact hmap x hne hp
    · rw [holog _ (hos.addr _ _ hi)] at hp; exact h.mapped i m x hi hne hp

end Zimr
