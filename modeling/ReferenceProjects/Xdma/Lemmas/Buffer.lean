import Mathlib.Data.List.TakeWhile
import ReferenceProjects.Xdma.Align
import ReferenceProjects.Xdma.Impl.Machine
import ReferenceProjects.Xdma.Pages

/-!
This module contains the buffer of a process as `char_sgdma_map_user_buf_to_sgl()` sees it: the bytes that
the entries of the scatter list have on the bus, and what is left of the pages when they are given back.
-/

namespace Xdma

open Copy Blocks

/-- The bus address of an address of the process. -/
def SgdmaCall.busAddr (c : SgdmaCall) (addr : Nat) : BitVec 64 :=
  c.bus (c.table (addr / pageSize)) + BitVec.ofNat 64 (addr % pageSize)

/-- The bytes of the buffer, each with the byte of the card that it is read from or written to. -/
def SgdmaCall.pairs (c : SgdmaCall) : List (BitVec 64 × BitVec 64) :=
  ((List.range' c.buf.toNat c.count.toNat).map c.busAddr).zip (cells c.pos c.count.toNat)

section Buffer

theorem pieces_cover (start len : Nat)
    : let ps := pieces pageSize (count pageSize start len) start len
      ps.2 = 0 ∧ (∀ p ∈ ps.1, p.offset + p.length ≤ pageSize)
        ∧ ps.1.flatMap (Piece.range pageSize) = List.range' start len
        ∧ ps.1.map Piece.block = List.range' (start / pageSize) (count pageSize start len) := by
  by_cases hlen : len = 0
  . -- no piece or an empty one
    subst hlen
    have hmod := Nat.mod_lt start (show 0 < pageSize by decide)
    have hcount : count pageSize start 0 = 0 ∨ count pageSize start 0 = 1 := by
      unfold count pageSize at *
      omega
    cases hcount with
    | inl h =>
      rw [h]
      simp [pieces]
    | inr h =>
      rw [h]
      simp only [pieces, Nat.min_zero, List.mem_singleton, forall_eq, Nat.add_zero]
      exact ⟨trivial, Nat.le_of_lt hmod, rfl, rfl⟩
  . have hspec := pieces_count (show 0 < pageSize by decide) _ start len (Nat.pos_of_ne_zero hlen) rfl
    exact ⟨hspec.1, fun p hp => (hspec.2.1 p hp).inside, hspec.2.2⟩

variable (c : SgdmaCall)

/-- The bytes of an entry of the scatter list are those of its piece of the buffer. -/
theorem cells_ofPiece {p : Piece} (hp : p.offset + p.length ≤ pageSize)
    : (SgPage.ofPiece (c.table p.block) p).cells c.bus = (p.range pageSize).map c.busAddr := by
  unfold SgPage.ofPiece SgPage.cells Piece.range Copy.cells
  dsimp only
  unfold pageSize at *
  have hlen : (BitVec.ofNat 32 p.length).toNat = p.length := by
    rw [BitVec.toNat_ofNat]
    omega
  have hoffset : (BitVec.ofNat 32 p.offset).setWidth 64 = BitVec.ofNat 64 p.offset := by
    apply BitVec.eq_of_toNat_eq
    rw [BitVec.toNat_setWidth, BitVec.toNat_ofNat, BitVec.toNat_ofNat]
    omega
  rw [hlen, hoffset, List.range'_eq_map_range, List.map_map]
  apply List.map_congr_left
  intro k hk
  rw [List.mem_range] at hk
  have hdiv : (p.block * 4096 + p.offset + k) / 4096 = p.block := by omega
  have hmod : (p.block * 4096 + p.offset + k) % 4096 = p.offset + k := by omega
  unfold SgdmaCall.busAddr pageSize
  rw [Function.comp_apply, hdiv, hmod, BitVec.ofNat_add, ← BitVec.add_assoc]
  rfl

theorem flatMap_cells_ofPiece {ps : List Piece} (hps : ∀ p ∈ ps, p.offset + p.length ≤ pageSize)
    : (List.zipWith SgPage.ofPiece ((ps.map Piece.block).map c.table) ps).flatMap (SgPage.cells c.bus)
      = (ps.flatMap (Piece.range pageSize)).map c.busAddr := by
  induction ps with
  | nil => rfl
  | cons p ps ih =>
    rw [List.forall_mem_cons] at hps
    rw [List.map_cons, List.map_cons, List.zipWith_cons_cons, List.flatMap_cons, List.flatMap_cons,
      List.map_append, ih hps.2, cells_ofPiece c hps.1]

/-- The pages that a mapping of the whole buffer pins, and the scatter list that it fills. -/
theorem sgSetPages_cells
    : let pages := (List.range' (c.buf.toNat / pageSize)
        (XdmaIoCb.pagesNrOf c.buf c.count).toNat).map c.table
      (sgSetPages pages c.buf c.count).2 = 0
        ∧ (sgSetPages pages c.buf c.count).1.flatMap (SgPage.cells c.bus)
          = (List.range' c.buf.toNat c.count.toNat).map c.busAddr := by
  intro pages
  have hlimit := c.limit
  have hnr : (XdmaIoCb.pagesNrOf c.buf c.count).toNat = count pageSize c.buf.toNat c.count.toNat :=
    pagesNrOf_toNat c.buf c.count (by omega)
  have hset := sgSetPages_eq pages c.buf.toNat c.count.toNat (by omega)
  rw [BitVec.ofNat_toNat, BitVec.ofNat_toNat, BitVec.setWidth_eq, BitVec.setWidth_eq] at hset
  have hlength : pages.length = count pageSize c.buf.toNat c.count.toNat := by
    rw [← hnr, List.length_map, List.length_range']
  have hcover := pieces_cover c.buf.toNat c.count.toNat
  have hpages : pages = ((pieces pageSize (count pageSize c.buf.toNat c.count.toNat) c.buf.toNat
      c.count.toNat).1.map Piece.block).map c.table := by
    rw [hcover.2.2.2, ← hnr]
  have hps4 : pieces 4096 pages.length c.buf.toNat c.count.toNat
      = pieces pageSize (count pageSize c.buf.toNat c.count.toNat) c.buf.toNat c.count.toNat := by
    rw [hlength]
    rfl
  rw [hset, hps4]
  generalize pieces pageSize (count pageSize c.buf.toNat c.count.toNat) c.buf.toNat c.count.toNat = ps
    at *
  refine ⟨?_, ?_⟩
  . rw [hcover.1]
    rfl
  . rw [hpages, flatMap_cells_ofPiece c hcover.2.1, hcover.2.2.1]

/-- The array of pages is allocated, but no page is pinned. -/
def SgdmaCall.Unpinned (c : SgdmaCall) : Prop :=
  let nr := XdmaIoCb.pagesNrOf c.buf c.count
  nr ≠ 0 ∧ c.kernel.sgAllocTable nr = true ∧ c.kernel.kcalloc nr = true
    ∧ (c.kernel.getUserPagesFast c.buf nr).1 ≤ 0

instance (c : SgdmaCall) : Decidable c.Unpinned := inferInstanceAs (Decidable (_ ∧ _))

/-- What the calls for a buffer hold after they were undone: the array of pages, if no page is pinned. -/
def SgdmaCall.leaked (c : SgdmaCall) : List MapRes := if c.Unpinned then [.pages] else []

/-- The calls of a mapping up to `get_user_pages_fast()`, with the number of pages that it pinned. -/
def pinCalls (n : Nat) : List MapCall :=
  Ledger.acquireAll (fun _ => true) ((List.range n).map .page)
    [.acquire .pages true, .acquire .sgTable true]

theorem pinCalls_spec (n : Nat)
    : Ledger.Sound (pinCalls n)
      ∧ Ledger.held (pinCalls n) = ((List.range n).map MapRes.page).reverse ++ [.pages, .sgTable] := by
  have hall : ((List.range n).map MapRes.page).takeWhile (fun _ => true)
      = (List.range n).map MapRes.page := by
    rw [List.takeWhile_eq_self_iff]
    intro _ _
    rfl
  unfold pinCalls
  constructor
  . apply Ledger.sound_acquireAll
    . decide
    . apply List.Nodup.map
      . intro i j heq
        cases heq
        rfl
      . apply List.nodup_range
    . intro r hr
      rw [List.mem_map] at hr
      obtain ⟨i, _, rfl⟩ := hr
      simp [Ledger.held]
  . rw [Ledger.held_acquireAll, hall]
    rfl

theorem putPages_pinned (pages : List Nat) (k : Nat) {nr : Nat} (hnr : pages.length ≤ nr)
    : putPages (pages.map some ++ List.replicate k none) nr
      = (List.range pages.length).map .page := by
  have htake : (((pages.map some ++ List.replicate k none).take nr).takeWhile Option.isSome)
      = pages.map some := by
    rw [List.take_append, List.take_of_length_le (by simpa using hnr), List.take_replicate,
      List.takeWhile_append_of_pos]
    . generalize min (nr - (pages.map some).length) k = j
      cases j with
      | zero => simp
      | succ j => simp [List.replicate_succ]
    . intro x hx
      rw [List.mem_map] at hx
      obtain ⟨page, _, rfl⟩ := hx
      rfl
  unfold putPages
  rw [htake, List.length_map]

theorem charSgdmaUnmapUserBuf_table {cb : XdmaIoCb} (h : cb.pages = none ∨ cb.pagesNr = 0)
    (calls : List MapCall)
    : (charSgdmaUnmapUserBuf cb calls).2 = .release .sgTable :: calls := by
  unfold charSgdmaUnmapUserBuf
  dsimp only
  split
  . rfl
  . next hpages =>
    rw [hpages] at h
    rw [if_pos (h.resolve_left (by simp))]

/-- Undoing a mapping puts the pages that are pinned, and frees the rest. -/
theorem charSgdmaUnmapUserBuf_spec {cb : XdmaIoCb} {pages : List Nat} {k : Nat}
    (hpages : cb.pages = some (pages.map some ++ List.replicate k none)) (hne : cb.pagesNr ≠ 0)
    (hnr : pages.length ≤ cb.pagesNr.toNat)
    : Ledger.Sound (charSgdmaUnmapUserBuf cb (pinCalls pages.length)).2
      ∧ Ledger.held (charSgdmaUnmapUserBuf cb (pinCalls pages.length)).2 = [] := by
  have hpin := pinCalls_spec pages.length
  have hput := putPages_pinned pages k hnr
  have hheld : (Ledger.held (.release .sgTable :: pinCalls pages.length)).Perm
      ((List.range pages.length).map MapRes.page ++ [.pages]) := by
    have hfront : MapRes.sgTable ∉ ((List.range pages.length).map MapRes.page).reverse := by simp
    unfold Ledger.held
    rw [hpin.2, List.erase_append_right _ hfront]
    apply List.Perm.append_right
    apply List.reverse_perm
  have hsound : Ledger.Sound (.release .sgTable :: pinCalls pages.length) := by
    refine ⟨?_, hpin.1⟩
    rw [hpin.2]
    simp
  have hrest := Ledger.perm_held_releaseAll hheld
  have hnodup : ((List.range pages.length).map MapRes.page).Nodup := by
    apply List.Nodup.map _ List.nodup_range
    intro i j heq
    cases heq
    rfl
  have hreleased := Ledger.sound_releaseAll hsound hnodup
    (fun r hr => hheld.mem_iff.mpr (List.mem_append_left _ hr))
  unfold charSgdmaUnmapUserBuf
  rw [hpages]
  dsimp only
  rw [if_neg hne, hput]
  dsimp only
  constructor
  . refine ⟨?_, hreleased⟩
    rw [hrest.mem_iff]
    apply List.mem_singleton_self
  . unfold Ledger.held
    rw [List.perm_singleton.mp hrest]
    rfl

/--
What a mapping comes to: it fails, and has given back all but an array of pages without a page, or it
maps the bytes of the buffer, and undoing it gives everything back.
-/
inductive MapCase (c : SgdmaCall) (r : MapResult) : Prop where
  | failed (rv : r.rv < 0) (sound : Ledger.Sound r.calls) (held : Ledger.held r.calls = c.leaked)
  | mapped (rv : r.rv = 0) (pinned : ¬ c.Unpinned)
      (cells : r.cb.sgl.flatMap (SgPage.cells c.bus)
        = (List.range' c.buf.toNat c.count.toNat).map c.busAddr)
      (sound : Ledger.Sound (charSgdmaUnmapUserBuf r.cb r.calls).2)
      (held : Ledger.held (charSgdmaUnmapUserBuf r.cb r.calls).2 = [])

theorem charSgdmaMapUserBufToSgl_case
    : MapCase c ((XdmaIoCb.ofBuf c.buf c.count).charSgdmaMapUserBufToSgl c.kernel) := by
  generalize hr : (XdmaIoCb.ofBuf c.buf c.count).charSgdmaMapUserBufToSgl c.kernel = r
  rcases hgup : c.kernel.getUserPagesFast c.buf (XdmaIoCb.pagesNrOf c.buf c.count) with ⟨rv, pinned⟩
  have hunpinned : c.Unpinned → rv ≤ 0 := by
    intro h
    have hle := h.2.2.2
    rw [hgup] at hle
    exact hle
  unfold XdmaIoCb.charSgdmaMapUserBufToSgl XdmaIoCb.ofBuf at hr
  simp only [hgup] at hr
  split at hr
  . next hzero =>
    subst hr
    exact .failed (show (-22 : Int) < 0 by decide) trivial (if_neg (fun h => h.1 hzero)).symm
  . next hpos =>
    split at hr
    . next halloc =>
      subst hr
      have hsound : Ledger.Sound [Ledger.Call.acquire MapRes.sgTable false] := by decide
      exact .failed (show (-12 : Int) < 0 by decide) hsound
        (if_neg (fun h => by simp [h.2.1] at halloc)).symm
    . next halloc =>
      split at hr
      . next hkcalloc =>
        subst hr
        have hspec : Ledger.Sound (charSgdmaUnmapUserBuf ⟨c.buf, c.count, 0, [], none⟩
              [.acquire .pages false, .acquire .sgTable true]).2
            ∧ Ledger.held (charSgdmaUnmapUserBuf ⟨c.buf, c.count, 0, [], none⟩
              [.acquire .pages false, .acquire .sgTable true]).2 = c.leaked := by
          rw [charSgdmaUnmapUserBuf_table (.inl rfl)]
          exact ⟨by decide, (if_neg (fun h => by simp [h.2.2.1] at hkcalloc)).symm⟩
        exact .failed (show (-12 : Int) < 0 by decide) hspec.1 hspec.2
      . next hkcalloc =>
        have hunpinned' : rv ≤ 0 → c.Unpinned := by
          intro h
          refine ⟨hpos, by simpa using halloc, by simpa using hkcalloc, ?_⟩
          rw [hgup]
          exact h
        have hleak : ∀ cb : XdmaIoCb, cb.pagesNr = 0 → rv ≤ 0 →
            Ledger.Sound (charSgdmaUnmapUserBuf cb (pinCalls 0)).2
              ∧ Ledger.held (charSgdmaUnmapUserBuf cb (pinCalls 0)).2 = c.leaked := by
          intro cb hcb hle
          rw [charSgdmaUnmapUserBuf_table (.inr hcb)]
          exact ⟨by decide, (if_pos (hunpinned' hle)).symm⟩
        split at hr
        . next hneg =>
          have hnone := c.walks.none _ _ _ _ hgup hneg
          have hspec := hleak ⟨c.buf, c.count, 0, [], some (pinned.map some ++ List.replicate
            ((XdmaIoCb.pagesNrOf c.buf c.count).toNat - pinned.length) none)⟩ rfl (Int.le_of_lt hneg)
          subst hr hnone
          exact .failed hneg hspec.1 hspec.2
        . next hnonneg =>
          obtain ⟨n, rfl⟩ := Int.eq_ofNat_of_zero_le (not_lt.mp hnonneg)
          have hwalk := c.walks.pages _ _ _ _ hgup
          have hlength : pinned.length = n := by
            rw [hwalk.2, List.length_map, List.length_range']
          have hword : (BitVec.ofInt 32 n).toNat = n := by
            have := (XdmaIoCb.pagesNrOf c.buf c.count).isLt
            rw [BitVec.ofInt_natCast, BitVec.toNat_ofNat]
            omega
          split at hr
          . next hless =>
            by_cases hzero : n = 0
            . have hnil : pinned = [] := List.eq_nil_of_length_eq_zero (by omega)
              have hspec := hleak ⟨c.buf, c.count, BitVec.ofInt 32 n, [], some (pinned.map some
                ++ List.replicate ((XdmaIoCb.pagesNrOf c.buf c.count).toNat - pinned.length) none)⟩
                (by rw [hzero]; rfl) (by omega)
              subst hr hnil hzero
              exact .failed (show (-14 : Int) < 0 by decide) hspec.1 hspec.2
            . subst hr
              have hspec := @charSgdmaUnmapUserBuf_spec
                ⟨c.buf, c.count, BitVec.ofInt 32 n, [], some (pinned.map some ++ List.replicate
                    ((XdmaIoCb.pagesNrOf c.buf c.count).toNat - pinned.length) none)⟩ pinned _ rfl
                (by
                  intro h
                  rw [show BitVec.ofInt 32 n = 0 from h] at hword
                  exact hzero hword.symm)
                (by dsimp only; rw [hword, hlength])
              exact .failed (show (-14 : Int) < 0 by decide) hspec.1
                (hspec.2.trans (if_neg (fun h => by have := hunpinned h; omega)).symm)
          . next hall =>
            have hcells := sgSetPages_cells c
            have hn : n = (XdmaIoCb.pagesNrOf c.buf c.count).toNat := by omega
            have hnot : ¬ c.Unpinned := by
              intro h
              have := hunpinned h
              apply hpos
              apply BitVec.eq_of_toNat_eq
              rw [← hn, show n = 0 by omega]
              rfl
            have hspec := fun sgl => @charSgdmaUnmapUserBuf_spec
              ⟨c.buf, c.count, XdmaIoCb.pagesNrOf c.buf c.count, sgl,
                some (pinned.map some ++ List.replicate
                  ((XdmaIoCb.pagesNrOf c.buf c.count).toNat - pinned.length) none)⟩ pinned _ rfl
              hpos (by dsimp only; omega)
            dsimp only at hcells
            rw [← hn, ← hwalk.2] at hcells
            split at hr
            . subst hr
              exact .failed (show (-14 : Int) < 0 by decide) (hspec []).1
                ((hspec []).2.trans (if_neg hnot).symm)
            . rw [if_neg (by simpa using hcells.1)] at hr
              subst hr
              exact .mapped rfl hnot hcells.2 (hspec _).1 (hspec _).2

end Buffer

end Xdma
