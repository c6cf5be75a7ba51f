import ReferenceProjects.Lib.Blocks
import ReferenceProjects.Xdma.Impl.Pages

/-!
This module contains that the scatter list of a user buffer is the buffer: as many entries as there are
pages, each inside one page, and nothing is left over.
-/

namespace Xdma

open Blocks

/-- The user addresses of the `i`-th entry of the scatter list of a buffer. -/
def SgPage.range (buf : BitVec 64) (e : SgPage) (i : Nat) : List Nat :=
  List.range' ((buf.toNat / pageSize + i) * pageSize + e.offset.toNat) e.length.toNat

def SgPage.Inside (e : SgPage) : Prop := 0 < e.length.toNat ∧ e.offset.toNat + e.length.toNat ≤ pageSize

/--
The kernel finds the memory for a buffer and pins all its pages, `pages`, which are distinct.
-/
structure PinKernel.Pins (k : PinKernel) (buf len : BitVec 64) (pages : List Nat) : Prop where
  sgAllocTable : k.sgAllocTable (XdmaIoCb.pagesNrOf buf len) = true
  kcalloc : k.kcalloc (XdmaIoCb.pagesNrOf buf len) = true
  pinned : k.getUserPagesFast buf (XdmaIoCb.pagesNrOf buf len)
    = (((XdmaIoCb.pagesNrOf buf len).toNat : Int), pages)
  length : pages.length = (XdmaIoCb.pagesNrOf buf len).toNat
  distinct : pages.Nodup

section Words

theorem offsetInPage_ofNat (start : Nat)
    : (offsetInPage (BitVec.ofNat 64 start)).toNat = start % 4096 := by
  have hmask : ~~~pageMask = BitVec.ofNat 64 (2 ^ 12 - 1) := by decide
  unfold offsetInPage
  rw [hmask, BitVec.toNat_setWidth, BitVec.toNat_and, BitVec.toNat_ofNat, BitVec.toNat_ofNat]
  rw [Nat.mod_eq_of_lt (show 2 ^ 12 - 1 < 2 ^ 64 by decide), Nat.and_two_pow_sub_one_eq_mod]
  omega

theorem sgBytes_ofNat {start len : Nat} (hlen : len < 2 ^ 32)
    : (sgBytes (offsetInPage (BitVec.ofNat 64 start)) (BitVec.ofNat 64 len)).toNat
      = min (4096 - start % 4096) len := by
  have hoffset := offsetInPage_ofNat start
  have hmod := Nat.mod_lt start (show 0 < 4096 by decide)
  have hpage : (4096 - offsetInPage (BitVec.ofNat 64 start)).toNat = 4096 - start % 4096 := by
    have hword : (4096 : BitVec 32).toNat = 4096 := rfl
    rw [BitVec.toNat_sub, hoffset, hword]
    omega
  have hword : (BitVec.setWidth 32 (BitVec.ofNat 64 len)).toNat = len := by
    rw [BitVec.toNat_setWidth, BitVec.toNat_ofNat]
    omega
  unfold sgBytes
  split
  . next hlt =>
    rw [BitVec.lt_def, hpage, hword] at hlt
    rw [hpage]
    omega
  . next hge =>
    rw [BitVec.lt_def, hpage, hword] at hge
    rw [hword]
    omega

theorem and_pageMask_toNat (buf : BitVec 64)
    : (buf &&& pageMask).toNat = buf.toNat / 4096 * 4096 := by
  have hshift : buf &&& pageMask = (buf >>> 12) <<< 12 := by
    have hmask : pageMask = ~~~BitVec.ofNat 64 (2 ^ 12 - 1) := rfl
    apply BitVec.eq_of_getLsbD_eq
    intro i hi
    rw [hmask]
    simp only [BitVec.getLsbD_and, BitVec.getLsbD_not, BitVec.getLsbD_ofNat,
      Nat.testBit_two_pow_sub_one, BitVec.getLsbD_shiftLeft, BitVec.getLsbD_ushiftRight]
    by_cases h : i < 12
    . simp [h]
    . simp only [hi, h, decide_true, decide_false, Bool.and_false, Bool.not_false, Bool.and_true,
        Bool.true_and]
      congr 1
      omega
  have hlt := buf.isLt
  rw [hshift, BitVec.toNat_shiftLeft, BitVec.toNat_ushiftRight, Nat.shiftRight_eq_div_pow,
    Nat.shiftLeft_eq]
  omega

/--
The sums in the page count may wrap, the count does not notice it.
-/
theorem pagesNrOf_toNat (buf len : BitVec 64) (hlen : len.toNat < 2 ^ 32)
    : (XdmaIoCb.pagesNrOf buf len).toNat = count 4096 buf.toNat len.toNat := by
  have hmask := and_pageMask_toNat buf
  have hbuf := buf.isLt
  have hpage : (4096 : BitVec 64).toNat = 4096 := rfl
  have hone : (1 : BitVec 64).toNat = 1 := rfl
  unfold XdmaIoCb.pagesNrOf count
  rw [BitVec.toNat_setWidth, BitVec.toNat_ushiftRight, BitVec.toNat_sub, BitVec.toNat_sub,
    BitVec.toNat_add, BitVec.toNat_add, hmask, hpage, hone, Nat.shiftRight_eq_div_pow]
  omega

end Words

section Loop

def SgPage.ofPiece (page : Nat) (p : Piece) : SgPage :=
  ⟨page, BitVec.ofNat 32 p.length, BitVec.ofNat 32 p.offset⟩

/--
The loop cuts the buffer at the page boundaries.
-/
theorem sgSetPages_eq (pages : List Nat) (start len : Nat) (hlen : len < 2 ^ 32)
    : sgSetPages pages (BitVec.ofNat 64 start) (BitVec.ofNat 64 len)
      = (List.zipWith SgPage.ofPiece pages (pieces 4096 pages.length start len).1,
        BitVec.ofNat 64 (pieces 4096 pages.length start len).2) := by
  induction pages generalizing start len with
  | nil => rfl
  | cons page pages ih =>
    have hmod := Nat.mod_lt start (show 0 < 4096 by decide)
    have hoffset : offsetInPage (BitVec.ofNat 64 start) = BitVec.ofNat 32 (start % 4096) := by
      apply BitVec.eq_of_toNat_eq
      rw [offsetInPage_ofNat, BitVec.toNat_ofNat]
      omega
    have hbytes : sgBytes (BitVec.ofNat 32 (start % 4096)) (BitVec.ofNat 64 len)
        = BitVec.ofNat 32 (min (4096 - start % 4096) len) := by
      apply BitVec.eq_of_toNat_eq
      rw [← hoffset, sgBytes_ofNat hlen, BitVec.toNat_ofNat]
      omega
    have hwide : (BitVec.ofNat 32 (min (4096 - start % 4096) len)).setWidth 64
        = BitVec.ofNat 64 (min (4096 - start % 4096) len) := by
      apply BitVec.eq_of_toNat_eq
      rw [BitVec.toNat_setWidth, BitVec.toNat_ofNat, BitVec.toNat_ofNat]
      omega
    have hnext : BitVec.ofNat 64 start + BitVec.ofNat 64 (min (4096 - start % 4096) len)
        = BitVec.ofNat 64 (start + min (4096 - start % 4096) len) := by
      rw [BitVec.ofNat_add]
    have hleft : BitVec.ofNat 64 len - BitVec.ofNat 64 (min (4096 - start % 4096) len)
        = BitVec.ofNat 64 (len - min (4096 - start % 4096) len) := by
      apply BitVec.eq_of_toNat_eq
      rw [BitVec.toNat_sub, BitVec.toNat_ofNat, BitVec.toNat_ofNat, BitVec.toNat_ofNat]
      omega
    simp only [sgSetPages, hoffset, hbytes, hwide, hnext, hleft]
    rw [ih (start + min (4096 - start % 4096) len) (len - min (4096 - start % 4096) len) (by omega)]
    rfl

theorem duplicatePages_of_nodup {pages : List Nat} (h : pages.Nodup)
    : duplicatePages pages = false := by
  induction pages with
  | nil => rfl
  | cons page pages ih =>
    rw [List.nodup_cons] at h
    cases pages with
    | nil => rfl
    | cons page' pages =>
      have hne : page ≠ page' := by
        intro heq
        apply h.1
        rw [heq]
        apply List.mem_cons_self
      simp only [duplicatePages, beq_false_of_ne hne, Bool.false_or]
      apply ih h.2

end Loop

section Entries

theorem SgPage.ofPiece_inside (page : Nat) {p : Piece} (h : p.Inside pageSize)
    : (SgPage.ofPiece page p).length.toNat = p.length
      ∧ (SgPage.ofPiece page p).offset.toNat = p.offset := by
  have hinside : p.offset + p.length ≤ 4096 := h.inside
  unfold SgPage.ofPiece
  rw [BitVec.toNat_ofNat, BitVec.toNat_ofNat]
  omega

theorem inside_of_mem_zipWith {pages : List Nat} {ps : List Piece}
    (hinside : ∀ p ∈ ps, p.Inside pageSize)
    : ∀ e ∈ List.zipWith SgPage.ofPiece pages ps, e.Inside := by
  intro e he
  rw [← List.map_uncurry_zip_eq_zipWith, List.mem_map] at he
  obtain ⟨⟨page, p⟩, hmem, rfl⟩ := he
  have hp := hinside p (List.of_mem_zip hmem).2
  have heq := SgPage.ofPiece_inside page hp
  unfold SgPage.Inside Function.uncurry
  rw [heq.1, heq.2]
  exact ⟨hp.nonempty, hp.inside⟩

/-- The piece of the user address space that the `i`-th entry of a buffer's scatter list is. -/
def SgPage.piece (buf : BitVec 64) (e : SgPage) (i : Nat) : Piece :=
  ⟨buf.toNat / pageSize + i, e.offset.toNat, e.length.toNat⟩

theorem piece_zipWith (buf : BitVec 64) (pages : List Nat) (ps : List Piece) (k : Nat)
    (hlength : pages.length = ps.length) (hinside : ∀ p ∈ ps, p.Inside pageSize)
    (hblock : ps.map Piece.block = List.range' (buf.toNat / pageSize + k) ps.length)
    : ((List.zipWith SgPage.ofPiece pages ps).zipIdx k).map (fun x => x.1.piece buf x.2) = ps := by
  induction pages generalizing ps k with
  | nil =>
    rw [List.length_nil] at hlength
    rw [List.length_eq_zero_iff.mp hlength.symm]
    rfl
  | cons page pages ih =>
    cases ps with
    | nil => contradiction
    | cons p ps =>
      rw [List.forall_mem_cons] at hinside
      rw [List.map_cons, List.length_cons, List.range'_succ, List.cons.injEq] at hblock
      have heq := SgPage.ofPiece_inside page hinside.1
      have hrest := ih ps (k + 1) (Nat.succ.inj hlength) hinside.2 hblock.2
      rw [List.zipWith_cons_cons, List.zipIdx_cons, List.map_cons, hrest]
      unfold SgPage.piece
      rw [heq.1, heq.2, ← hblock.1]

end Entries

section Users

def userSegment (p : Piece) : Scatterlist :=
  ⟨BitVec.ofNat 64 (p.block * pageSize + p.offset), p.length⟩

theorem mapPages_eq (n start len : Nat) (hlen : 0 < len) (hword : len < 2 ^ 32)
    (hn : n = count pageSize start len)
    : mapPages n (start / pageSize) start len
      = ((pieces pageSize n start len).1.map userSegment, (pieces pageSize n start len).2) := by
  have hb : 0 < pageSize := by decide
  induction n generalizing start len with
  | zero => rfl
  | succ n ih =>
    simp only [mapPages, pieces, Nat.mod_eq_of_lt hword]
    by_cases hfirst : len ≤ pageSize - start % pageSize
    . rw [count_first hb hlen hfirst] at hn
      obtain rfl : n = 0 := by omega
      rfl
    . rw [Nat.not_le] at hfirst
      have hcount := count_next hb hfirst
      have hih := ih (start + min (pageSize - start % pageSize) len)
        (len - min (pageSize - start % pageSize) len) (by omega) (by omega) (by omega)
      rw [(start_next hb hfirst).2] at hih
      rw [hih]
      rfl

theorem pagesNr_eq_count {buf len : Nat} (hlen : len ≤ 0x7ffff000)
    : pagesNr buf len = count pageSize buf len := by
  unfold pagesNr count pageSize
  omega

end Users

/-- What `char_sgdma_map_user_buf_to_sgl()` makes of a buffer whose pages are pinned. -/
structure MapsBuffer (buf len : BitVec 64) (pages : List Nat) (r : MapResult) : Prop where
  ok : r.rv = 0
  entries : r.cb.sgl.length = (XdmaIoCb.pagesNrOf buf len).toNat
  inside : ∀ e ∈ r.cb.sgl, e.Inside
  page : r.cb.sgl.map SgPage.page = pages
  range : r.cb.sgl.zipIdx.flatMap (fun x => x.1.range buf x.2) = List.range' buf.toNat len.toNat
  left : (sgSetPages pages buf len).2 = 0

theorem charSgdmaMapUserBufToSgl_pins {k : PinKernel} {buf len : BitVec 64} {pages : List Nat}
    (hpins : k.Pins buf len pages) (hnr : XdmaIoCb.pagesNrOf buf len ≠ 0)
    (hleft : (sgSetPages pages buf len).2 = 0)
    : ((XdmaIoCb.ofBuf buf len).charSgdmaMapUserBufToSgl k).rv = 0
      ∧ ((XdmaIoCb.ofBuf buf len).charSgdmaMapUserBufToSgl k).cb.sgl = (sgSetPages pages buf len).1 := by
  have hpos : ¬ ((XdmaIoCb.pagesNrOf buf len).toNat : Int) < 0 := by omega
  unfold XdmaIoCb.charSgdmaMapUserBufToSgl XdmaIoCb.ofBuf
  simp only [hnr, hpins.sgAllocTable, hpins.kcalloc, hpins.pinned, Bool.not_true,
    Bool.false_eq_true, ↓reduceIte, hpos, ne_eq, not_true_eq_false,
    duplicatePages_of_nodup hpins.distinct, hleft, and_self]

/--
The scatter list of pinned pages is the pieces of the buffer, page by page.
-/
theorem charSgdmaMapUserBufToSgl_pieces {k : PinKernel} {buf len : BitVec 64} {pages : List Nat}
    (hlen : 1 ≤ len.toNat) (hmax : len.toNat ≤ 0x7ffff000) (hpins : k.Pins buf len pages)
    : let n := count pageSize buf.toNat len.toNat
      let r := (XdmaIoCb.ofBuf buf len).charSgdmaMapUserBufToSgl k
      pages.length = n ∧ r.rv = 0 ∧ (sgSetPages pages buf len).2 = 0
        ∧ r.cb.sgl = List.zipWith SgPage.ofPiece pages (pieces pageSize n buf.toNat len.toNat).1 := by
  have hcount := pagesNrOf_toNat buf len (by omega)
  have hpages : pages.length = count pageSize buf.toNat len.toNat := by
    rw [hpins.length, hcount]
    rfl
  have hspec := pieces_count (show 0 < pageSize by decide) pages.length buf.toNat len.toNat hlen hpages
  have hset := sgSetPages_eq pages buf.toNat len.toNat (by omega)
  rw [BitVec.ofNat_toNat, BitVec.ofNat_toNat, BitVec.setWidth_eq, BitVec.setWidth_eq] at hset
  have hleft : (sgSetPages pages buf len).2 = 0 := by
    rw [hset]
    show BitVec.ofNat 64 (pieces pageSize pages.length buf.toNat len.toNat).2 = 0
    rw [hspec.1]
    rfl
  have hnr : XdmaIoCb.pagesNrOf buf len ≠ 0 := by
    intro hzero
    have hnone : (pieces pageSize pages.length buf.toNat len.toNat).1 = [] := by
      rw [← List.length_eq_zero_iff, length_pieces, hpins.length, hzero]
      rfl
    have hrange := congrArg List.length hspec.2.2.1
    rw [hnone, List.length_range', List.flatMap_nil, List.length_nil] at hrange
    omega
  have hok := charSgdmaMapUserBufToSgl_pins hpins hnr hleft
  dsimp only
  refine ⟨hpages, hok.1, hleft, ?_⟩
  rw [hok.2, hset, ← hpages]
  rfl

/--
The scatter list of a buffer whose pages are all pinned, as distinct pages, has one entry for each of
them, inside that page, and the entries in order are the buffer.
-/
theorem charSgdmaMapUserBufToSgl_mapsBuffer (k : PinKernel) (buf len : BitVec 64) (pages : List Nat)
    (hlen : 1 ≤ len.toNat) (hmax : len.toNat ≤ 0x7ffff000) (hpins : k.Pins buf len pages)
    : MapsBuffer buf len pages ((XdmaIoCb.ofBuf buf len).charSgdmaMapUserBufToSgl k) := by
  obtain ⟨hpages, hrv, hleft, hsgl⟩ := charSgdmaMapUserBufToSgl_pieces hlen hmax hpins
  have hspec := pieces_count (show 0 < pageSize by decide) _ buf.toNat len.toNat hlen rfl
  have hlength := length_pieces (b := pageSize) (count pageSize buf.toNat len.toNat) buf.toNat
    len.toNat
  generalize (pieces pageSize (count pageSize buf.toNat len.toNat) buf.toNat len.toNat).1 = ps at *
  obtain ⟨_, hinside, hrange, hblock⟩ := hspec
  have heq : pages.length = ps.length := by rw [hpages, hlength]
  constructor
  . apply hrv
  . rw [hsgl, List.length_zipWith, ← heq, Nat.min_self, hpins.length]
  . rw [hsgl]
    apply inside_of_mem_zipWith hinside
  . rw [hsgl, ← List.map_uncurry_zip_eq_zipWith, List.map_map]
    apply List.map_fst_zip
    omega
  . have hpiece := piece_zipWith buf pages ps 0 heq hinside (by rw [hlength]; exact hblock)
    rw [hsgl, ← hrange]
    conv_rhs => rw [← hpiece, List.flatMap_map]
    rfl
  . apply hleft

/-- Two pages of a buffer of two bytes across a page boundary. -/
def pinTwo : PinKernel := ⟨fun _ => true, fun _ => true, fun _ nr => (nr.toNat, [7, 9])⟩

theorem charSgdmaMapUserBufToSgl_mapsBuffer_two
    : MapsBuffer 4095 2 [7, 9] ((XdmaIoCb.ofBuf 4095 2).charSgdmaMapUserBufToSgl pinTwo) :=
  charSgdmaMapUserBufToSgl_mapsBuffer pinTwo 4095 2 [7, 9] (by decide) (by decide)
    ⟨rfl, rfl, rfl, by decide, by decide⟩

/--
With user addresses in place of the pages it is the scatter list that the submissions are given.
-/
theorem charSgdmaMapUserBufToSgl_refines (k : PinKernel) (pin : PinPages) (buf len : BitVec 64)
    (pages : List Nat) (hlen : 1 ≤ len.toNat) (hmax : len.toNat ≤ 0x7ffff000)
    (hpins : k.Pins buf len pages) (hpin : ∀ buf nr, pin buf nr = .ok ())
    : let sgl := ((XdmaIoCb.ofBuf buf len).charSgdmaMapUserBufToSgl k).cb.sgl
      charSgdmaMapUserBufToSgl pin buf.toNat len.toNat
        = .ok (sgl.zipIdx.map (fun x => userSegment (x.1.piece buf x.2))) := by
  obtain ⟨hpages, _, _, hsgl⟩ := charSgdmaMapUserBufToSgl_pieces hlen hmax hpins
  have hspec := pieces_count (show 0 < pageSize by decide) _ buf.toNat len.toNat hlen rfl
  have hlength := length_pieces (b := pageSize) (count pageSize buf.toNat len.toNat) buf.toNat
    len.toNat
  have hmap := mapPages_eq _ buf.toNat len.toNat hlen (by omega) rfl
  have hpos : count pageSize buf.toNat len.toNat ≠ 0 := by
    unfold count pageSize
    omega
  rw [hspec.1] at hmap
  generalize (pieces pageSize (count pageSize buf.toNat len.toNat) buf.toNat len.toNat).1 = ps at *
  have hpiece := piece_zipWith buf pages ps 0 (by omega) hspec.2.1 (by rw [hlength]; exact hspec.2.2.2)
  dsimp only
  rw [hsgl]
  unfold charSgdmaMapUserBufToSgl
  simp only [pagesNr_eq_count hmax, hpos, ↓reduceIte, hpin, hmap, ne_eq, not_true_eq_false]
  conv_lhs => rw [← hpiece, List.map_map]
  rfl

end Xdma
