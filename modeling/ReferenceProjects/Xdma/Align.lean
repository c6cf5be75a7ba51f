import ReferenceProjects.Xdma.Lemmas.Request
import ReferenceProjects.Xdma.Lemmas.Transfer
import ReferenceProjects.Xdma.Pages
import ReferenceProjects.Xdma.Scatter

/-!
This module contains the alignment of descriptors: `check_transfer_align()` looks at a request as a
whole, the engine sees what the page boundaries and `desc_blen_max` leave of it.
-/

namespace Xdma

open Blocks

/-- `get_user_pages_fast()` returns the number of pages that it pinned. -/
def PinKernel.Counts (k : PinKernel) : Prop :=
  ∀ buf nr (n : Nat) pages, k.getUserPagesFast buf nr = ((n : Int), pages) → pages.length = n

def SgPage.extent (e : SgPage) : Extent := ⟨e.offset.toNat, e.length.toNat⟩

def Scatterlist.extent (sg : Scatterlist) : Extent := ⟨sg.dmaAddress.toNat, sg.dmaLen⟩

/--
What `pci_map_sg()` may make of a scatter list: each segment is one entry or several ones in a row, and
starts at the offset in a page that its first entry has.
-/
inductive DmaMapping : List SgPage → List Scatterlist → Prop where
  | nil : DmaMapping [] []
  | segment (e : SgPage) (run : List SgPage) {entries : List SgPage} (sg : Scatterlist)
      {sgl : List Scatterlist}
      (hplace : sg.extent.place ≡ e.extent.place [MOD pageSize])
      (hlength : sg.dmaLen = (((e :: run).map SgPage.extent).map Extent.length).sum)
      (rest : DmaMapping entries sgl) : DmaMapping (e :: run ++ entries) (sg :: sgl)

/--
The descriptors that the submissions make of a request, one transfer after the other, each with the
engine as it is then.
-/
def buildTransfers (engine : Nat → XdmaEngine) : (fuel k : Nat) → XdmaRequestCb → List XdmaDesc
  | 0, _, _ => []
  | fuel + 1, k, req =>
    if req.swDescIdx < req.swDescCnt then
      let (e, req', xfer) := transferInit (engine k) req
      (List.range xfer.descNum).map (fun i => e.desc (xfer.descIndex + i))
        ++ buildTransfers engine fuel (k + 1) req'
    else
      []

/--
The rule that `check_transfer_align()` holds a request to, for one descriptor. A stream to the host has
no device address: the descriptor holds that of the result there.
-/
def CharEngine.DescAligned (e : CharEngine) (streaming : Bool) (d : XdmaDesc) : Prop :=
  let m := d.move e.dir
  if e.nonIncrAddr then
    e.addrAlign.toNat ∣ m.host.toNat ∧ e.lenGranularity.toNat ∣ m.len
  else
    ¬ (streaming = true ∧ e.dir = .fromDevice) →
      m.host.toNat ≡ m.dev.toNat [MOD e.addrAlign.toNat]

/--
Splitting keeps to the rule: in the non-incremental mode the buffer may be in several segments only if
it starts at a multiple of the granularity, and a segment may be cut only at such a multiple that is a
multiple of the alignment too.
-/
def CharEngine.SplitKeeps (e : CharEngine) (buf : BitVec 64) (descBlenMax : Nat)
    (sgl : List Scatterlist) : Prop :=
  e.nonIncrAddr = true →
    (sgl.length ≤ 1 ∨ e.lenGranularity.toNat ∣ buf.toNat)
      ∧ ∀ sg ∈ sgl, descBlenMax < sg.dmaLen →
          e.addrAlign.toNat ∣ descBlenMax ∧ e.lenGranularity.toNat ∣ descBlenMax

section Check

variable (e : CharEngine)

theorem and_align_toNat {w : Nat} {align : BitVec 8} {a : Nat} (ha : align.toNat = 2 ^ a) (hw : 8 < w)
    (x : Nat)
    : (BitVec.ofNat w x &&& (align.setWidth w - 1)).toNat = x % align.toNat := by
  have hlt := align.isLt
  have hpos := Nat.two_pow_pos a
  have hword : 2 ^ 9 ≤ 2 ^ w := Nat.pow_le_pow_right (by omega) hw
  have hle : a ≤ w := by
    by_contra h
    have := Nat.pow_lt_pow_right (show 1 < 2 by omega) (not_le.mp h)
    omega
  have hmask : (align.setWidth w - 1).toNat = 2 ^ a - 1 := by
    have hone : (BitVec.ofNat w 1).toNat = 1 := by
      rw [BitVec.toNat_ofNat, Nat.mod_eq_of_lt (by omega)]
    have halign : (align.setWidth w).toNat = 2 ^ a := by
      rw [BitVec.toNat_setWidth, ha, Nat.mod_eq_of_lt (by omega)]
    have hsum : 2 ^ w - 1 + 2 ^ a = 2 ^ a - 1 + 2 ^ w := by omega
    show (align.setWidth w - BitVec.ofNat w 1).toNat = 2 ^ a - 1
    rw [BitVec.toNat_sub, hone, halign, hsum, Nat.add_mod_right, Nat.mod_eq_of_lt (by omega)]
  rw [BitVec.toNat_and, hmask, Nat.and_two_pow_sub_one_eq_mod, BitVec.toNat_ofNat, ha,
    Nat.mod_mod_of_dvd _ (Nat.pow_dvd_pow 2 hle)]

theorem dvd_pageSize {align : BitVec 8} {a : Nat} (ha : align.toNat = 2 ^ a)
    : align.toNat ∣ pageSize := by
  have hlt := align.isLt
  have hle : a ≤ 12 := by
    by_contra h
    have := Nat.pow_lt_pow_right (show 1 < 2 by omega) (not_le.mp h)
    omega
  rw [ha]
  exact Nat.pow_dvd_pow 2 hle

variable {e} {a g : Nat} (ha : e.addrAlign.toNat = 2 ^ a) (hg : e.lenGranularity.toNat = 2 ^ g)
variable {buf count pos : Nat} {sync : Bool} (hcheck : checkTransferAlign e buf count pos sync = .ok ())

include ha hcheck

theorem checkTransferAlign_incr (hincr : e.nonIncrAddr = false)
    : buf ≡ pos [MOD e.addrAlign.toNat] := by
  have hbuf := and_align_toNat ha (show 8 < 32 by omega) buf
  have hpos := and_align_toNat ha (show 8 < 32 by omega) pos
  unfold checkTransferAlign at hcheck
  simp only [hincr, Bool.false_eq_true, ↓reduceIte, ne_eq, ite_not] at hcheck
  split at hcheck
  . next heq =>
    rw [heq, hpos] at hbuf
    exact hbuf.symm
  . contradiction

include hg

theorem checkTransferAlign_nonIncr (hnon : e.nonIncrAddr = true)
    : e.addrAlign.toNat ∣ buf ∧ e.lenGranularity.toNat ∣ count := by
  have hbuf := and_align_toNat ha (show 8 < 32 by omega) buf
  have hlen := and_align_toNat hg (show 8 < 64 by omega) count
  unfold checkTransferAlign at hcheck
  simp only [hnon, ↓reduceIte, ne_eq, ite_not] at hcheck
  split at hcheck
  . next hzero =>
    rw [hzero] at hbuf
    split at hcheck
    . contradiction
    . split at hcheck
      . next hzero' =>
        rw [hzero'] at hlen
        exact ⟨Nat.dvd_of_mod_eq_zero hbuf.symm, Nat.dvd_of_mod_eq_zero hlen.symm⟩
      . contradiction
  . contradiction

end Check

section Mapping

theorem sgBytes_le (offset : BitVec 32) (len : BitVec 64)
    : (sgBytes offset len).toNat ≤ len.toNat % 2 ^ 32 := by
  unfold sgBytes
  split
  . next hlt =>
    rw [BitVec.lt_def, BitVec.toNat_setWidth] at hlt
    omega
  . rw [BitVec.toNat_setWidth]

/--
No round takes a length below `2 ^ 32` that was not below it.
-/
theorem sgSetPages_long (pages : List Nat) (buf len : BitVec 64) (h : 2 ^ 32 ≤ len.toNat)
    : 2 ^ 32 ≤ (sgSetPages pages buf len).2.toNat := by
  induction pages generalizing buf len with
  | nil => exact h
  | cons page pages ih =>
    have hle := sgBytes_le (offsetInPage buf) len
    have hlt := len.isLt
    simp only [sgSetPages]
    apply ih
    rw [BitVec.toNat_sub, BitVec.toNat_setWidth]
    omega

theorem mapErrOut_rv (rv : Int) (cb : XdmaIoCb) (calls : List MapCall)
    : (mapErrOut rv cb calls).rv = rv := rfl

/--
A mapping that succeeded pinned as many pages as there are, and nothing of the buffer is left over.
-/
theorem charSgdmaMapUserBufToSgl_success {k : PinKernel} (hk : k.Counts) {cb : XdmaIoCb}
    (hmap : (cb.charSgdmaMapUserBufToSgl k).rv = 0)
    : ∃ pages : List Nat, pages.length = (XdmaIoCb.pagesNrOf cb.buf cb.len).toNat
        ∧ (sgSetPages pages cb.buf cb.len).2 = 0
        ∧ (cb.charSgdmaMapUserBufToSgl k).cb.sgl = (sgSetPages pages cb.buf cb.len).1 := by
  generalize hr : cb.charSgdmaMapUserBufToSgl k = r at hmap
  unfold XdmaIoCb.charSgdmaMapUserBufToSgl at hr
  dsimp only at hr
  generalize hnr : XdmaIoCb.pagesNrOf cb.buf cb.len = nr at *
  refine ⟨(k.getUserPagesFast cb.buf nr).2, ?_⟩
  split at hr
  . subst hr
    contradiction
  . split at hr
    . subst hr
      contradiction
    . split at hr
      . subst hr
        contradiction
      . split at hr
        . next hneg =>
          subst hr
          rw [mapErrOut_rv] at hmap
          omega
        . split at hr
          . subst hr
            contradiction
          . next hall =>
            refine ⟨hk _ _ _ _ (Prod.ext (not_not.mp hall) rfl), ?_⟩
            split at hr
            . subst hr
              contradiction
            . split at hr
              . subst hr
                contradiction
              . next hrest =>
                subst hr
                exact ⟨not_not.mp hrest, rfl⟩

theorem extent_zipWith {pages : List Nat} {ps : List Piece} (hlength : pages.length = ps.length)
    (hinside : ∀ p ∈ ps, p.offset < 2 ^ 32 ∧ p.length < 2 ^ 32)
    : (List.zipWith SgPage.ofPiece pages ps).map SgPage.extent = ps.map Piece.extent := by
  induction pages generalizing ps with
  | nil =>
    rw [List.length_nil] at hlength
    rw [List.length_eq_zero_iff.mp hlength.symm]
    rfl
  | cons page pages ih =>
    cases ps with
    | nil => contradiction
    | cons p ps =>
      rw [List.forall_mem_cons] at hinside
      rw [List.zipWith_cons_cons, List.map_cons, List.map_cons, ih (Nat.succ.inj hlength) hinside.2]
      unfold SgPage.extent SgPage.ofPiece Piece.extent
      rw [BitVec.toNat_ofNat, BitVec.toNat_ofNat, Nat.mod_eq_of_lt hinside.1.1,
        Nat.mod_eq_of_lt hinside.1.2]

theorem lt_of_mem_pieces (n start len : Nat)
    : ∀ p ∈ (pieces pageSize n start len).1, p.offset < pageSize ∧ p.length ≤ pageSize := by
  induction n generalizing start len with
  | zero =>
    intro p hp
    contradiction
  | succ n ih =>
    have hmod := Nat.mod_lt start (show 0 < pageSize by decide)
    simp only [pieces]
    rw [List.forall_mem_cons]
    refine ⟨⟨hmod, ?_⟩, ih _ _⟩
    dsimp only
    omega

theorem charSgdmaMapUserBufToSgl_tiled {k : PinKernel} (hk : k.Counts) {buf len : BitVec 64}
    (hmap : ((XdmaIoCb.ofBuf buf len).charSgdmaMapUserBufToSgl k).rv = 0)
    : let xs := ((XdmaIoCb.ofBuf buf len).charSgdmaMapUserBufToSgl k).cb.sgl.map SgPage.extent
      Tiled pageSize buf.toNat xs ∧ (xs.map Extent.length).sum = len.toNat := by
  obtain ⟨pages, hlength, hrest, hsgl⟩ := charSgdmaMapUserBufToSgl_success hk hmap
  have hlen : len.toNat < 2 ^ 32 := by
    by_contra h
    have hlong := sgSetPages_long pages buf len (not_lt.mp h)
    rw [show (sgSetPages pages buf len).2 = 0 from hrest] at hlong
    contradiction
  have hset := sgSetPages_eq pages buf.toNat len.toNat hlen
  have hn : pages.length = count pageSize buf.toNat len.toNat := by
    rw [hlength]
    apply pagesNrOf_toNat _ _ hlen
  have htiled := tiled_pieces (show 0 < pageSize by decide) pages.length buf.toNat len.toNat
    (Nat.le_of_eq hn)
  have htotal := pieces_length (b := pageSize) pages.length buf.toNat len.toNat
  have hps := length_pieces (b := pageSize) pages.length buf.toNat len.toNat
  have hmem := lt_of_mem_pieces pages.length buf.toNat len.toNat
  rw [BitVec.ofNat_toNat, BitVec.ofNat_toNat, BitVec.setWidth_eq, BitVec.setWidth_eq] at hset
  replace hrest : (sgSetPages pages buf len).2 = 0 := hrest
  replace hsgl : _ = (sgSetPages pages buf len).1 := hsgl
  have hps4 : pieces 4096 pages.length buf.toNat len.toNat
      = pieces pageSize pages.length buf.toNat len.toNat := rfl
  rw [hset, hps4] at hrest hsgl
  generalize pieces pageSize pages.length buf.toNat len.toNat = ps at *
  have hleft : ps.2 = 0 := by
    have hword := congrArg BitVec.toNat hrest
    rw [BitVec.toNat_ofNat] at hword
    have hzero : (0 : BitVec 64).toNat = 0 := rfl
    omega
  have hextents := extent_zipWith hps.symm (fun p hp => by
    have := hmem p hp
    unfold pageSize at this
    omega)
  dsimp only at hsgl ⊢
  rw [hsgl, hextents]
  refine ⟨htiled, ?_⟩
  rw [← htotal, hleft, List.map_map]
  rfl

theorem DmaMapping.eq_nil {entries : List SgPage} {sgl : List Scatterlist}
    (h : DmaMapping entries sgl) (hnil : entries = [])
    : sgl = [] := by
  cases h with
  | nil => rfl
  | segment => contradiction

/--
Merging entries and moving their pages keeps a list that covers a buffer page by page one that does.
-/
theorem DmaMapping.tiled {entries : List SgPage} {sgl : List Scatterlist}
    (h : DmaMapping entries sgl) {start : Nat}
    (htiled : Tiled pageSize start (entries.map SgPage.extent))
    : Tiled pageSize start (sgl.map Scatterlist.extent)
      ∧ ((sgl.map Scatterlist.extent).map Extent.length).sum
          = ((entries.map SgPage.extent).map Extent.length).sum := by
  induction h generalizing start with
  | nil => exact ⟨trivial, rfl⟩
  | segment e run sg hplace hlength rest ih =>
    rw [List.cons_append, List.map_cons, List.map_append] at htiled
    have hmerge := htiled.merge
    have hrest := ih hmerge.2.2
    rw [← List.map_cons, ← hlength] at hmerge hrest
    constructor
    . refine ⟨hplace.trans hmerge.1, ?_, hrest.1⟩
      intro hne
      apply hmerge.2.1
      intro hnil
      apply hne
      rw [List.map_eq_nil_iff] at hnil ⊢
      apply rest.eq_nil hnil
    . rw [List.map_append, List.map_append, List.sum_append, ← hlength, List.map_cons, List.map_cons,
        List.sum_cons, hrest.2]
      rfl

end Mapping

section Split

variable {A G b : Nat}

theorem dvd_toNat_add (hA : A ∣ 2 ^ 64) (addr : BitVec 64) (n : Nat)
    : A ∣ (addr + BitVec.ofNat 64 n).toNat ↔ A ∣ addr.toNat + n := by
  rw [BitVec.toNat_add, BitVec.toNat_ofNat, Nat.add_mod_mod, Nat.dvd_mod_iff hA]

theorem toNat_add_modEq (hA : A ∣ 2 ^ 64) (addr : BitVec 64) (n : Nat)
    : (addr + BitVec.ofNat 64 n).toNat ≡ addr.toNat + n [MOD A] := by
  rw [BitVec.toNat_add, BitVec.toNat_ofNat, Nat.add_mod_mod]
  apply (Nat.mod_modEq _ _).of_dvd hA

theorem splitSg_head {fuel tlen : Nat} {addr : BitVec 64} {sds : List SwDesc} (hpos : 0 < tlen)
    (h : splitSg b fuel addr tlen = some sds)
    : ∃ sd ∈ sds, sd.addr = addr := by
  obtain ⟨tlen, rfl⟩ := Nat.exists_eq_add_of_le' hpos
  cases fuel with
  | zero => contradiction
  | succ fuel =>
    simp only [splitSg] at h
    split at h
    . simp only [Option.map_eq_some_iff] at h
      obtain ⟨rest, _, rfl⟩ := h
      exact ⟨_, List.mem_cons_self, rfl⟩
    . simp only [Option.some.injEq] at h
      subst h
      exact ⟨_, List.mem_cons_self, rfl⟩

/--
The descriptors of a segment at a multiple of the alignment are aligned exactly when its length is a
multiple of the granularity and, if it has to be cut, `desc_blen_max` is a multiple of both.
-/
theorem splitSg_aligned_iff (hA : A ∣ 2 ^ 64) {fuel tlen : Nat} {addr : BitVec 64}
    {sds : List SwDesc} (haddr : A ∣ addr.toNat) (h : splitSg b fuel addr tlen = some sds)
    : (∀ sd ∈ sds, A ∣ sd.addr.toNat ∧ G ∣ sd.len) ↔ G ∣ tlen ∧ (b < tlen → A ∣ b ∧ G ∣ b) := by
  induction fuel generalizing addr tlen sds with
  | zero =>
    cases tlen with
    | zero =>
      simp only [splitSg, Option.some.injEq] at h
      subst h
      simp
    | succ tlen => contradiction
  | succ fuel ih =>
    cases tlen with
    | zero =>
      simp only [splitSg, Option.some.injEq] at h
      subst h
      simp
    | succ tlen =>
      simp only [splitSg] at h
      split at h
      . next hlong =>
        simp only [Option.map_eq_some_iff] at h
        obtain ⟨rest, hrest, rfl⟩ := h
        have hnext := dvd_toNat_add hA addr b
        have hsum : tlen + 1 - b + b = tlen + 1 := by omega
        rw [Nat.dvd_add_right haddr] at hnext
        rw [List.forall_mem_cons]
        constructor
        . rintro ⟨⟨_, hG⟩, hall⟩
          obtain ⟨sd, hsd, heq⟩ := splitSg_head (by omega) hrest
          have hb : A ∣ b := by
            rw [← hnext, ← heq]
            apply (hall sd hsd).1
          have hleft := ((ih (hnext.mpr hb) hrest).mp hall).1
          rw [← hsum]
          exact ⟨Nat.dvd_add hleft hG, fun _ => ⟨hb, hG⟩⟩
        . rintro ⟨hlen, hcut⟩
          have hboth := hcut hlong
          rw [← hsum, Nat.dvd_add_left hboth.2] at hlen
          exact ⟨⟨haddr, hboth.2⟩,
            (ih (hnext.mpr hboth.1) hrest).mpr ⟨hlen, fun _ => hboth⟩⟩
      . next hshort =>
        simp only [Option.some.injEq] at h
        subst h
        simp only [List.mem_singleton, forall_eq, haddr, true_and]
        constructor
        . intro hlen
          exact ⟨hlen, fun hlong => absurd hlong hshort⟩
        . intro hlen
          exact hlen.1

theorem splitSgl_cons {sg : Scatterlist} {sgl : List Scatterlist} {sds : List SwDesc}
    (h : splitSgl b (sg :: sgl) = some sds)
    : ∃ head tail, splitSg b sg.dmaLen sg.dmaAddress sg.dmaLen = some head
        ∧ splitSgl b sgl = some tail ∧ sds = head ++ tail := by
  simp only [splitSgl, Option.bind_eq_bind, Option.bind_eq_some_iff, Option.pure_def,
    Option.some.injEq] at h
  obtain ⟨head, hhead, tail, htail, rfl⟩ := h
  exact ⟨head, tail, hhead, htail, rfl⟩

theorem splitSgl_aligned_iff (hA : A ∣ 2 ^ 64) {sgl : List Scatterlist} {sds : List SwDesc}
    (haddr : ∀ sg ∈ sgl, A ∣ sg.dmaAddress.toNat) (h : splitSgl b sgl = some sds)
    : (∀ sd ∈ sds, A ∣ sd.addr.toNat ∧ G ∣ sd.len)
        ↔ ∀ sg ∈ sgl, G ∣ sg.dmaLen ∧ (b < sg.dmaLen → A ∣ b ∧ G ∣ b) := by
  induction sgl generalizing sds with
  | nil =>
    simp only [splitSgl, Option.some.injEq] at h
    subst h
    simp
  | cons sg sgl ih =>
    rw [List.forall_mem_cons] at haddr
    obtain ⟨head, tail, hhead, htail, rfl⟩ := splitSgl_cons h
    rw [List.forall_mem_append, List.forall_mem_cons, splitSg_aligned_iff hA haddr.1 hhead,
      ih haddr.2 htail]

/--
The pieces of a segment stay as far apart from the device address as the segment is.
-/
theorem splitSg_modEq (hA : A ∣ 2 ^ 64) {fuel tlen : Nat} {addr epAddr : BitVec 64}
    {sds : List SwDesc} (haddr : addr.toNat ≡ epAddr.toNat [MOD A])
    (h : splitSg b fuel addr tlen = some sds)
    : swTotal sds = tlen ∧ ∀ m ∈ swMoves false epAddr sds, m.host.toNat ≡ m.dev.toNat [MOD A] := by
  induction fuel generalizing addr epAddr tlen sds with
  | zero =>
    cases tlen with
    | zero =>
      simp only [splitSg, Option.some.injEq] at h
      subst h
      simp
    | succ tlen => contradiction
  | succ fuel ih =>
    cases tlen with
    | zero =>
      simp only [splitSg, Option.some.injEq] at h
      subst h
      simp
    | succ tlen =>
      simp only [splitSg] at h
      split at h
      . next hlong =>
        simp only [Option.map_eq_some_iff] at h
        obtain ⟨rest, hrest, rfl⟩ := h
        have hhost := toNat_add_modEq hA addr b
        have hdev := toNat_add_modEq hA epAddr b
        have hnext := (hhost.trans (haddr.add_right b)).trans hdev.symm
        have hstep := ih hnext hrest
        rw [swTotal_cons, swMoves_cons, List.forall_mem_cons, hstep.1]
        refine ⟨by dsimp only; omega, haddr, ?_⟩
        simp only [swEpAddr, Bool.false_eq_true, ↓reduceIte, swTotal_cons, swTotal_nil, Nat.add_zero]
        exact hstep.2
      . simp only [Option.some.injEq] at h
        subst h
        rw [swMoves_cons, List.forall_mem_cons, swMoves_nil]
        refine ⟨rfl, haddr, ?_⟩
        intro m hm
        contradiction

theorem splitSgl_modEq (hA : A ∣ 2 ^ 64) (hpage : A ∣ pageSize) {sgl : List Scatterlist}
    {sds : List SwDesc} {start : Nat} {epAddr : BitVec 64}
    (htiled : Tiled pageSize start (sgl.map Scatterlist.extent)) (hep : start ≡ epAddr.toNat [MOD A])
    (h : splitSgl b sgl = some sds)
    : ∀ m ∈ swMoves false epAddr sds, m.host.toNat ≡ m.dev.toNat [MOD A] := by
  induction sgl generalizing sds start epAddr with
  | nil =>
    simp only [splitSgl, Option.some.injEq] at h
    subst h
    simp
  | cons sg sgl ih =>
    obtain ⟨head, tail, hhead, htail, rfl⟩ := splitSgl_cons h
    have haddr : sg.dmaAddress.toNat ≡ start [MOD A] := htiled.1.of_dvd hpage
    have hsg := splitSg_modEq hA (haddr.trans hep) hhead
    have hdev := toNat_add_modEq hA epAddr sg.dmaLen
    have hrest := ih htiled.2.2 ((hep.add_right _).trans hdev.symm) htail
    rw [swMoves_append, List.forall_mem_append]
    refine ⟨hsg.2, ?_⟩
    simp only [swEpAddr, Bool.false_eq_true, ↓reduceIte, hsg.1]
    exact hrest

end Split

section Build

variable {engine : Nat → XdmaEngine} {dir : DmaDataDirection} {streaming nonIncrAddr : Bool}
variable (hring : ∀ n, (engine n).descIdx < 2048)
variable (hdir : ∀ n, (engine n).dir = dir) (hstreaming : ∀ n, (engine n).streaming = streaming)
variable (hincr : ∀ n, (engine n).nonIncrAddr = nonIncrAddr)

theorem buildTransfers_succ {fuel k : Nat} {req : XdmaRequestCb} (h : req.swDescIdx < req.swDescCnt)
    : buildTransfers engine (fuel + 1) k req
        =
      (List.range (transferDescMax (engine k) req)).map
          (fun i => (transferInit (engine k) req).1.desc ((engine k).descIdx + i))
        ++ buildTransfers engine fuel (k + 1) (transferInit (engine k) req).2.1 := by
  have hxfer := transferInit_xfer (engine k) req
  have hnum : (transferInit (engine k) req).2.2.descNum = transferDescMax (engine k) req := by
    rw [hxfer]
  have hindex : (transferInit (engine k) req).2.2.descIndex = (engine k).descIdx := by
    rw [hxfer]
    rfl
  simp only [buildTransfers, h, ↓reduceIte, hnum, hindex]

theorem rest_eq_nil {req : XdmaRequestCb} (h : ¬ req.swDescIdx < req.swDescCnt)
    : req.rest = [] := by
  unfold XdmaRequestCb.swDescCnt at h
  apply List.drop_eq_nil_of_le (by omega)

include hring hdir

theorem buildTransfers_hosts (fuel k : Nat) (req : XdmaRequestCb)
    (hlen : ∀ sd ∈ req.sdesc, sd.len < 2 ^ 32) (hfuel : req.rest.length ≤ fuel)
    : (buildTransfers engine fuel k req).map (fun d => (d.move dir).hostSegment)
        = req.rest.map SwDesc.segment := by
  induction fuel generalizing k req with
  | zero =>
    rw [List.length_eq_zero_iff.mp (Nat.le_zero.mp hfuel)]
    rfl
  | succ fuel ih =>
    by_cases hmore : req.swDescIdx < req.swDescCnt
    . have hpos := transferDescMax_pos (engine k) req (hring k) hmore
      have hhosts := transferInit_hosts (engine k) req (hring k) hlen
      have hlength := XdmaRequestCb.length_rest_transferInit (engine k) req
      have hrest := ih (k + 1) (transferInit (engine k) req).2.1
        (by rw [transferInit_req]; exact hlen) (by omega)
      rw [hdir k] at hhosts
      rw [buildTransfers_succ hmore, List.map_append, hrest, List.map_map,
        XdmaRequestCb.rest_transferInit (engine k) req, List.map_append, ← hhosts]
      rfl
    . rw [rest_eq_nil hmore]
      simp only [buildTransfers, hmore, ↓reduceIte, List.map_nil]

include hstreaming hincr

theorem buildTransfers_moves (hst : ¬ (streaming = true ∧ dir = .fromDevice)) (fuel k : Nat)
    (req : XdmaRequestCb) (hlen : ∀ sd ∈ req.sdesc, sd.len < 2 ^ 32) (hfuel : req.rest.length ≤ fuel)
    : (buildTransfers engine fuel k req).map (XdmaDesc.move dir)
        = swMoves nonIncrAddr req.epAddr req.rest := by
  have hc2h : ∀ n, (engine n).streamC2h = false := by
    intro n
    unfold XdmaEngine.streamC2h
    rw [hdir n, hstreaming n, Bool.eq_false_iff]
    simpa only [ne_eq, Bool.and_eq_true, beq_iff_eq] using hst
  induction fuel generalizing k req with
  | zero =>
    rw [List.length_eq_zero_iff.mp (Nat.le_zero.mp hfuel), swMoves_nil]
    rfl
  | succ fuel ih =>
    by_cases hmore : req.swDescIdx < req.swDescCnt
    . have hpos := transferDescMax_pos (engine k) req (hring k) hmore
      have hmoves := transferInit_moves (engine k) req (hring k) (hc2h k) hlen
      have hlength := XdmaRequestCb.length_rest_transferInit (engine k) req
      have hrest := ih (k + 1) (transferInit (engine k) req).2.1
        (by rw [transferInit_req]; exact hlen) (by omega)
      have hep : (transferInit (engine k) req).2.1.epAddr
          = swEpAddr nonIncrAddr req.epAddr (transferSdesc (engine k) req) := by
        rw [transferInit_req, hincr k]
      rw [hdir k, hincr k] at hmoves
      rw [buildTransfers_succ hmore, List.map_append, hrest, List.map_map, hep,
        XdmaRequestCb.rest_transferInit (engine k) req, swMoves_append, ← hmoves]
      rfl
    . rw [rest_eq_nil hmore, swMoves_nil]
      simp only [buildTransfers, hmore, ↓reduceIte, List.map_nil]

end Build

section Submit

variable (p : ModuleParam) {r : Nat} (dmaMapped : Bool)

/-- What else happens during a wait leaves the mode of the engine, its ring, and request `r` alone. -/
def Wait.KeepsRequest (r : Nat) (w : Wait) : Prop :=
  ∀ s : Driver, s.engine.descIdx < 2048 →
    (w.others s).engine.config = s.engine.config ∧ (w.others s).engine.descIdx < 2048
      ∧ (w.others s).req r = s.req r

theorem buildTransfers_update (engine : Nat → XdmaEngine) (e : XdmaEngine) (fuel : Nat) {k k' : Nat}
    (hk : k < k') (req : XdmaRequestCb)
    : buildTransfers (Function.update engine k e) fuel k' req = buildTransfers engine fuel k' req := by
  induction fuel generalizing k' req with
  | zero => rfl
  | succ fuel ih =>
    have hrest := ih (Nat.lt_succ_of_lt hk)
    have hne : k' ≠ k := by omega
    simp only [buildTransfers, Function.update_of_ne hne, hrest]

theorem submitInit_xferDescs (s : Driver) (r : Nat) (nents : Nat)
    : let t := XferPtr.tfer r 0
      (submitInit s r t none dmaMapped nents).1.xferDescs t
        = (List.range (transferDescMax s.engine (s.req r))).map
            (fun i => (transferInit s.engine (s.req r)).1.desc (s.engine.descIdx + i)) := by
  have hxfer := submitInit_xfer s r (.tfer r 0) none dmaMapped nents
  dsimp only at hxfer ⊢
  rw [transferInit_xfer] at hxfer
  simp only [Driver.xferDescs, hxfer.1, hxfer.2.1, submitInit_engine]
  rfl

theorem submitInit_queued {s q : Driver} {nents : Nat} {hw : HwRegs}
    (hqueue : transferQueue p (submitInit s r (.tfer r 0) none dmaMapped nents).1 (.tfer r 0) hw
      = .ok q)
    : q.engine.config = s.engine.config ∧ q.engine.descIdx < 2048
        ∧ q.req r = (transferInit s.engine (s.req r)).2.1 := by
  have hengine := submitInit_engine s r (.tfer r 0) none dmaMapped nents
  have hreq := submitInit_req s r (.tfer r 0) none dmaMapped nents
  generalize (submitInit s r (.tfer r 0) none dmaMapped nents).1 = m at *
  rw [transferQueueLocked_eq (transferQueue_ok hqueue).2.2]
  simp only [Driver.enqueue, hengine, hreq]
  exact ⟨rfl, Nat.mod_lt _ (by simp), trivial⟩

theorem submitDestroy_frame (s : Driver) (t : XferPtr)
    : (submitDestroy s t).engine.config = s.engine.config
        ∧ (submitDestroy s t).engine.descIdx = s.engine.descIdx
        ∧ (submitDestroy s t).req = s.req := by
  rw [submitDestroy_eq]
  exact ⟨rfl, rfl, rfl⟩

variable {env : Nat → Wait} (henv : ∀ k, (env k).KeepsRequest r)

include henv

/--
The descriptors that `xdma_xfer_submit()` queued are the first ones that building the whole request
makes.
-/
theorem submitLoop_built {fuel k : Nat} {s : Driver} (hs : s.engine.descIdx < 2048) {l : SubmitLoop}
    (hnents : l.nents ≠ 0 → l.nents = (s.req r).rest.length) {l' : SubmitLoop} {descs : List (List XdmaDesc)}
    {s' : Driver} (h : submitLoop p r dmaMapped env fuel k s l = some (l', descs, s'))
    : ∃ engine : Nat → XdmaEngine,
        (∀ n, (engine n).descIdx < 2048 ∧ (engine n).config = s.engine.config)
          ∧ descs.flatten <+: buildTransfers engine fuel k (s.req r) := by
  induction fuel generalizing k s l l' descs s' with
  | zero =>
    unfold submitLoop at h
    split at h
    . rw [Option.some.injEq, Prod.mk.injEq, Prod.mk.injEq] at h
      rw [← h.2.1]
      exact ⟨fun _ => s.engine, fun _ => ⟨hs, rfl⟩, List.nil_prefix⟩
    . contradiction
  | succ fuel ih =>
    by_cases hzero : l.nents = 0
    . unfold submitLoop at h
      rw [if_pos hzero, Option.some.injEq, Prod.mk.injEq, Prod.mk.injEq] at h
      rw [← h.2.1]
      exact ⟨fun _ => s.engine, fun _ => ⟨hs, rfl⟩, List.nil_prefix⟩
    . have hmore : (s.req r).swDescIdx < (s.req r).swDescCnt := by
        have hlength := hnents hzero
        simp only [XdmaRequestCb.rest, List.length_drop] at hlength
        unfold XdmaRequestCb.swDescCnt
        omega
      cases hqueue : transferQueue p (submitInit s r (.tfer r 0) none dmaMapped l.nents).1
          (.tfer r 0) (env k).hwQueue with
      | error err =>
        unfold submitLoop at h
        rw [if_neg hzero] at h
        dsimp only at h
        rw [hqueue] at h
        rw [Option.some.injEq, Prod.mk.injEq, Prod.mk.injEq] at h
        rw [← h.2.1]
        exact ⟨fun _ => s.engine, fun _ => ⟨hs, rfl⟩, List.nil_prefix⟩
      | ok q =>
        have hround := submitLoop_succ p dmaMapped env fuel k s hzero hqueue
        have hqueued := submitInit_queued p dmaMapped hqueue
        have hwait := henv k q hqueued.2.1
        dsimp only at hround
        rw [h] at hround
        split at hround
        . -- the last transfer of the call
          rw [Option.some.injEq, Prod.mk.injEq, Prod.mk.injEq] at hround
          refine ⟨fun _ => s.engine, fun _ => ⟨hs, rfl⟩, ?_⟩
          rw [hround.2.1, List.flatten_singleton, submitInit_xferDescs, buildTransfers_succ hmore]
          apply List.prefix_append
        . next hrv =>
          rw [Bool.not_eq_true, submitSwitch_rv] at hrv
          have hlength := XdmaRequestCb.length_rest_transferInit s.engine (s.req r)
          have hleft := submitSwitch_nents ((env k).others q).engine (((env k).others q).xfer (.tfer r 0))
            { l with nents := (submitInit s r (.tfer r 0) none dmaMapped l.nents).2 }
          have hinit := submitInit_nents s r (.tfer r 0) none dmaMapped l.nents
          have hframe := submitDestroy_frame ((env k).others q) (.tfer r 0)
          rw [hnents hzero, ← hlength, ← hqueued.2.2, ← hwait.2.2, ← hframe.2.2] at hinit
          rw [submitWake_of_settled p (.inl hrv), eq_comm, Option.map_eq_some_iff] at hround
          obtain ⟨⟨l₁, descs₁, s₁⟩, hloop, heq⟩ := hround
          rw [Prod.mk.injEq, Prod.mk.injEq] at heq
          have hring : (submitDestroy ((env k).others q) (.tfer r 0)).engine.descIdx < 2048 := by
            rw [hframe.2.1]
            exact hwait.2.1
          have hmode := hframe.1.trans (hwait.1.trans hqueued.1)
          obtain ⟨engine, hengine, hfirst⟩ := ih hring
            (fun hne => (hleft.resolve_left hne).trans (by rw [hnents hzero]; exact hinit)) hloop
          refine ⟨Function.update engine k s.engine, ?_, ?_⟩
          . intro n
            by_cases hn : n = k
            . rw [hn, Function.update_self]
              exact ⟨hs, rfl⟩
            . rw [Function.update_of_ne hn]
              exact ⟨(hengine n).1, (hengine n).2.trans hmode⟩
          . rw [hframe.2.2, hwait.2.2, hqueued.2.2] at hfirst
            rw [← heq.2.1, List.flatten_cons, submitInit_xferDescs, buildTransfers_succ hmore,
              Function.update_self, buildTransfers_update _ _ _ (Nat.lt_succ_self k)]
            exact (List.prefix_append_right_inj _).mpr hfirst

end Submit

theorem xdmaInitRequest_eq {b : Nat} {alloc : Nat → Bool} {sgl : List Scatterlist}
    {epAddr : BitVec 64} {req : XdmaRequestCb} (h : xdmaInitRequest b alloc sgl epAddr = .ok req)
    : ∃ sds, splitSgl b sgl = some sds ∧ req = ⟨epAddr, 0, sds⟩ := by
  unfold xdmaInitRequest at h
  dsimp only at h
  split at h
  . contradiction
  . split at h
    . split at h
      . contradiction
      . next sds hsds =>
        split at h
        . contradiction
        . rw [Except.ok.injEq] at h
          exact ⟨sds, hsds, h.symm⟩
    . contradiction

section Rule

variable {e : CharEngine} {sgl : List Scatterlist} {start b : Nat} {sds : List SwDesc}
variable {req : XdmaRequestCb} {streaming : Bool} {engine : Nat → XdmaEngine}
variable (hsplit : splitSgl b sgl = some sds)
variable (htiled : Tiled pageSize start (sgl.map Scatterlist.extent))
variable (hA : e.addrAlign.toNat ∣ pageSize)

theorem dvd_two_pow {A : Nat} (hA : A ∣ pageSize)
    : A ∣ 2 ^ 64 := by
  apply Nat.dvd_trans hA
  exact ⟨2 ^ 52, by decide⟩

include hsplit htiled hA

theorem splitKeeps_nonIncr (hG : e.lenGranularity.toNat ∣ pageSize)
    (hstart : e.addrAlign.toNat ∣ start)
    (htotal : e.lenGranularity.toNat ∣ ((sgl.map Scatterlist.extent).map Extent.length).sum)
    : (∀ sd ∈ sds, e.addrAlign.toNat ∣ sd.addr.toNat ∧ e.lenGranularity.toNat ∣ sd.len)
        ↔
      (sgl.length ≤ 1 ∨ e.lenGranularity.toNat ∣ start)
        ∧ ∀ sg ∈ sgl, b < sg.dmaLen → e.addrAlign.toNat ∣ b ∧ e.lenGranularity.toNat ∣ b := by
  have haddr : ∀ sg ∈ sgl, e.addrAlign.toNat ∣ sg.dmaAddress.toNat := by
    have hplace := htiled.dvd_place hA hstart
    rw [List.forall_mem_map] at hplace
    exact hplace
  have hlength := htiled.dvd_length_iff hG htotal
  rw [List.forall_mem_map, List.length_map] at hlength
  rw [splitSgl_aligned_iff (dvd_two_pow hA) haddr hsplit, ← hlength]
  constructor
  . intro h
    exact ⟨fun sg hsg => (h sg hsg).1, fun sg hsg => (h sg hsg).2⟩
  . intro h sg hsg
    exact ⟨h.1 sg hsg, h.2 sg hsg⟩

/--
The descriptors of a request whose segments cover a checked buffer page by page are aligned exactly when
splitting keeps to the rule.
-/
theorem buildTransfers_descAligned_iff {a g : Nat} (ha : e.addrAlign.toNat = 2 ^ a)
    (hg : e.lenGranularity.toNat = 2 ^ g) {buf len pos : BitVec 64} {sync : Bool}
    (hcheck : checkTransferAlign e buf.toNat len.toNat pos.toNat sync = .ok ())
    (hbuf : start = buf.toNat)
    (htotal : ((sgl.map Scatterlist.extent).map Extent.length).sum = len.toNat)
    (hb : 1 ≤ b) (hb' : b ≤ xdmaDescBlenMax) (hring : ∀ n, (engine n).descIdx < 2048)
    (hengine : ∀ n, (engine n).config = (e.dir, streaming, e.nonIncrAddr))
    : (∀ d ∈ buildTransfers engine sds.length 0 ⟨pos, 0, sds⟩, e.DescAligned streaming d)
        ↔ e.SplitKeeps buf b sgl := by
  have hlen : ∀ sd ∈ sds, sd.len < 2 ^ 32 := by
    intro sd hsd
    obtain ⟨sds', hsplit', hmem, _⟩ := splitSgl_spec hb sgl
    rw [hsplit, Option.some.injEq] at hsplit'
    rw [hsplit'] at hsd
    have hle := (hmem sd hsd).2
    simp only [xdmaDescBlenMax] at hb'
    omega
  subst hbuf
  simp only [XdmaEngine.config, Prod.mk.injEq] at hengine
  cases hmode : e.nonIncrAddr with
  | true =>
    have hwhole := checkTransferAlign_nonIncr ha hg hcheck hmode
    have hhosts := buildTransfers_hosts hring (fun n => (hengine n).1) sds.length 0 ⟨pos, 0, sds⟩ hlen
      (Nat.le_refl _)
    have hkeeps := splitKeeps_nonIncr hsplit htiled hA (dvd_pageSize hg) hwhole.1
      (by rw [htotal]; exact hwhole.2)
    have hdescs := List.forall_mem_map (f := fun d => (d.move e.dir).hostSegment)
      (l := buildTransfers engine sds.length 0 ⟨pos, 0, sds⟩)
      (P := fun seg => e.addrAlign.toNat ∣ seg.addr.toNat ∧ e.lenGranularity.toNat ∣ seg.len)
    rw [hhosts, XdmaRequestCb.rest, List.drop_zero, List.forall_mem_map] at hdescs
    unfold CharEngine.DescAligned CharEngine.SplitKeeps
    simp only [hmode, ↓reduceIte, forall_const]
    rw [← hkeeps]
    exact hdescs.symm
  | false =>
    have hwhole := checkTransferAlign_incr ha hcheck hmode
    unfold CharEngine.DescAligned CharEngine.SplitKeeps
    simp only [hmode, Bool.false_eq_true, ↓reduceIte, IsEmpty.forall_iff, iff_true]
    intro d hd hst
    have hmoves := buildTransfers_moves hring (fun n => (hengine n).1) (fun n => (hengine n).2.1)
      (fun n => (hengine n).2.2) hst sds.length 0 ⟨pos, 0, sds⟩ hlen (Nat.le_refl _)
    have hmem := List.mem_map_of_mem (f := XdmaDesc.move e.dir) hd
    rw [hmode] at hmoves
    rw [hmoves] at hmem
    apply splitSgl_modEq (dvd_two_pow hA) hA htiled hwhole hsplit _ hmem

omit hsplit

/--
So are those that `xdma_xfer_submit()` queues, where splitting keeps to the rule.
-/
theorem xdmaXferSubmit_descAligned {a g : Nat} (ha : e.addrAlign.toNat = 2 ^ a)
    (hg : e.lenGranularity.toNat = 2 ^ g) {buf len pos : BitVec 64} {sync : Bool}
    (hcheck : checkTransferAlign e buf.toNat len.toNat pos.toNat sync = .ok ())
    (hbuf : start = buf.toNat)
    (htotal : ((sgl.map Scatterlist.extent).map Extent.length).sum = len.toNat)
    {p : ModuleParam} (hb : 1 ≤ p.descBlenMax) (hb' : p.descBlenMax ≤ xdmaDescBlenMax)
    (hkeeps : e.SplitKeeps buf p.descBlenMax sgl) {alloc : Nat → Bool} {s : Driver}
    (hring : s.engine.descIdx < 2048) (hmode : s.engine.config = (e.dir, streaming, e.nonIncrAddr))
    {r : Nat} {write dmaMapped : Bool} {env : Nat → Wait} (henv : ∀ k, (env k).KeepsRequest r)
    {res : SubmitResult} (h : xdmaXferSubmit p alloc s r write pos sgl dmaMapped env = some res)
    : ∀ d ∈ res.descs.flatten, e.DescAligned streaming d := by
  unfold xdmaXferSubmit at h
  split at h
  . contradiction
  . cases h
    intro d hd
    contradiction
  . next m req hsubmit =>
    obtain ⟨hreq, hm⟩ := submitRequest_ok hsubmit
    obtain ⟨sds, hsplit, rfl⟩ := xdmaInitRequest_eq hreq
    have hengine : m.engine = s.engine := by rw [hm]; rfl
    have hmreq : m.req r = ⟨pos, 0, sds⟩ := by rw [hm]; exact Function.update_self ..
    rw [← hengine] at hring hmode
    split at h
    . contradiction
    . next l descs s' hloop =>
      cases h
      obtain ⟨engine, hbuilt, hfirst⟩ := submitLoop_built p dmaMapped henv hring
        (fun _ => by rw [hmreq]; rfl) hloop
      rw [hmreq] at hfirst
      have hall := buildTransfers_descAligned_iff hsplit htiled hA ha hg hcheck hbuf htotal hb hb'
        (fun n => (hbuilt n).1) (fun n => (hbuilt n).2.trans hmode)
      intro d hd
      apply hall.mpr hkeeps _ (hfirst.subset hd)

end Rule

/--
Every descriptor of a request that `check_transfer_align()` let pass keeps to the rule of its mode
exactly when splitting the request does: always in the incremental mode, and in the other one unless the
splitting makes pieces that the check did not see.
-/
theorem checkTransferAlign_descAligned_iff (e : CharEngine) {a g : Nat}
    (ha : e.addrAlign.toNat = 2 ^ a) (hg : e.lenGranularity.toNat = 2 ^ g) (k : PinKernel)
    (hk : k.Counts) (buf len pos : BitVec 64) (sync : Bool)
    (hcheck : checkTransferAlign e buf.toNat len.toNat pos.toNat sync = .ok ())
    (hmap : ((XdmaIoCb.ofBuf buf len).charSgdmaMapUserBufToSgl k).rv = 0) (sgl : List Scatterlist)
    (hdma : DmaMapping ((XdmaIoCb.ofBuf buf len).charSgdmaMapUserBufToSgl k).cb.sgl sgl)
    (descBlenMax : Nat) (hb : 1 ≤ descBlenMax) (hb' : descBlenMax ≤ xdmaDescBlenMax)
    (alloc : Nat → Bool) (req : XdmaRequestCb)
    (hreq : xdmaInitRequest descBlenMax alloc sgl pos = .ok req) (streaming : Bool)
    (engine : Nat → XdmaEngine) (hring : ∀ n, (engine n).descIdx < 2048)
    (hengine : ∀ n, (engine n).config = (e.dir, streaming, e.nonIncrAddr))
    : (∀ d ∈ buildTransfers engine req.swDescCnt 0 req, e.DescAligned streaming d)
        ↔ e.SplitKeeps buf descBlenMax sgl := by
  obtain ⟨htiled, htotal⟩ := charSgdmaMapUserBufToSgl_tiled hk hmap
  obtain ⟨hsgl, hsum⟩ := hdma.tiled htiled
  obtain ⟨sds, hsplit, rfl⟩ := xdmaInitRequest_eq hreq
  rw [htotal] at hsum
  apply buildTransfers_descAligned_iff hsplit hsgl (dvd_pageSize ha) ha hg hcheck rfl hsum hb hb' hring
    hengine

/-- An engine in non-incremental mode: addresses of two bytes, lengths of four. -/
def fixedEngine : CharEngine := ⟨.toDevice, true, 2, 4⟩

/-- The same engine where it builds transfers. -/
def fixedXdmaEngine : XdmaEngine :=
  { XdmaEngine.init .toDevice false 0x100000 0 with nonIncrAddr := true }

def pinAll : PinKernel := ⟨fun _ => true, fun _ => true, fun _ nr => (nr.toNat, List.range nr.toNat)⟩

theorem pinAll_counts : pinAll.Counts := by
  intro buf nr n pages h
  cases h
  exact List.length_range

/-- Eight bytes from the middle of a page on, cut into two descriptors of four. -/
theorem checkTransferAlign_descAligned_iff_cut
    : (∀ d ∈ buildTransfers (fun _ => fixedXdmaEngine) 2 0 ⟨0, 0, [⟨0x10800, 4⟩, ⟨0x10804, 4⟩]⟩,
          fixedEngine.DescAligned false d)
        ↔ fixedEngine.SplitKeeps 0x800 4 [⟨0x10800, 8⟩] :=
  checkTransferAlign_descAligned_iff fixedEngine (a := 1) (g := 2) rfl rfl pinAll pinAll_counts 0x800 8
    0 true rfl (by decide) [⟨0x10800, 8⟩]
    (.segment ⟨0, 8, 0x800⟩ [] ⟨0x10800, 8⟩ (by decide) (by decide) .nil) 4 (by decide) (by decide)
    (fun _ => true) ⟨0, 0, [⟨0x10800, 4⟩, ⟨0x10804, 4⟩]⟩ rfl false (fun _ => fixedXdmaEngine)
    (fun _ => by decide) (fun _ => rfl)

/--
Four bytes across a page boundary pass the check and become two descriptors of two bytes; eight bytes of
one page do too where `desc_blen_max` is six, and the second descriptor is short.
-/
theorem checkTransferAlign_descs_unaligned
    : (checkTransferAlign fixedEngine 4094 4 0 true = .ok ()
        ∧ DmaMapping ((XdmaIoCb.ofBuf 4094 4).charSgdmaMapUserBufToSgl pinAll).cb.sgl
            [⟨0x10ffe, 2⟩, ⟨0x20000, 2⟩]
        ∧ ∃ req, xdmaInitRequest xdmaDescBlenMax (fun _ => true) [⟨0x10ffe, 2⟩, ⟨0x20000, 2⟩] 0 = .ok req
          ∧ ¬ ∀ d ∈ buildTransfers (fun _ => fixedXdmaEngine) req.swDescCnt 0 req,
                fixedEngine.DescAligned false d)
      ∧ (checkTransferAlign fixedEngine 0 8 0 true = .ok ()
        ∧ DmaMapping ((XdmaIoCb.ofBuf 0 8).charSgdmaMapUserBufToSgl pinAll).cb.sgl [⟨0x10000, 8⟩]
        ∧ ∃ req, xdmaInitRequest 6 (fun _ => true) [⟨0x10000, 8⟩] 0 = .ok req
          ∧ ¬ ∀ d ∈ buildTransfers (fun _ => fixedXdmaEngine) req.swDescCnt 0 req,
                fixedEngine.DescAligned false d) := by
  have hshort : ∀ req : XdmaRequestCb,
      2 ∈ (buildTransfers (fun _ => fixedXdmaEngine) req.swDescCnt 0 req).map (fun d => d.bytes.toNat) →
        ¬ ∀ d ∈ buildTransfers (fun _ => fixedXdmaEngine) req.swDescCnt 0 req,
            fixedEngine.DescAligned false d := by
    intro req hmem hall
    obtain ⟨d, hd, hbytes⟩ := List.mem_map.mp hmem
    have hlen : 4 ∣ d.bytes.toNat := (hall d hd).2
    rw [hbytes] at hlen
    contradiction
  refine ⟨⟨rfl, ?_, _, rfl, hshort _ (by decide +kernel)⟩, ⟨rfl, ?_, _, rfl, hshort _ (by decide +kernel)⟩⟩
  . exact .segment ⟨0, 2, 4094⟩ [] ⟨0x10ffe, 2⟩ (by decide) (by decide)
      (.segment ⟨1, 2, 0⟩ [] ⟨0x20000, 2⟩ (by decide) (by decide) .nil)
  . exact .segment ⟨0, 8, 0⟩ [] ⟨0x10000, 8⟩ (by decide) (by decide) .nil

end Xdma
