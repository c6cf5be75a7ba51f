import ReferenceProjects.Xdma.Impl.Sgdma
import ReferenceProjects.Xdma.Lemmas.Request

/-!
This module contains when a vectored, asynchronous operation on the character device moves the same
bytes to or from the same device addresses as one on a single buffer.
-/

namespace Xdma

open Copy

/-- The bytes of the host and of the device that a submission to an incremental engine pairs. -/
def Submission.pairs (s : Submission) : List (BitVec 64 × BitVec 64) :=
  ((s.sgl.map Scatterlist.segment).flatMap Segment.cells).zip (cells s.epAddr (sgTotal s.sgl))

def Iovec.segment (io : Iovec) : Segment (BitVec 64) := ⟨BitVec.ofNat 64 io.iovBase, io.iovLen⟩

/-- The number of bytes of a vector. -/
def iovTotal (iov : List Iovec) : Nat := total (iov.map Iovec.segment)

/-- The bytes of a vector, in order. -/
def iovCells (iov : List Iovec) : List (BitVec 64) := (iov.map Iovec.segment).flatMap Segment.cells

section MapUserBuf

theorem mapPages_spec (nr page buf len : Nat) (hlen : len < 2 ^ 32)
    (h : len = 0 ∨ buf / pageSize = page ∧ len + buf % pageSize ≤ nr * pageSize)
    : (mapPages nr page buf len).2 = 0
        ∧ ((mapPages nr page buf len).1.map Scatterlist.segment).flatMap Segment.cells
          = cells (BitVec.ofNat 64 buf) len := by
  unfold pageSize at h
  induction nr generalizing page buf len with
  | zero =>
    have hzero : len = 0 := by omega
    simp [mapPages, hzero]
  | succ nr ih =>
    have hoffset := Nat.mod_lt buf (show 0 < 4096 by omega)
    have hlen32 : len % 2 ^ 32 = len := Nat.mod_eq_of_lt hlen
    unfold mapPages pageSize
    rw [hlen32]
    dsimp only
    have hrest : len - min (4096 - buf % 4096) len = 0
        ∨ (buf + min (4096 - buf % 4096) len) / 4096 = page + 1
          ∧ len - min (4096 - buf % 4096) len + (buf + min (4096 - buf % 4096) len) % 4096
            ≤ nr * 4096 := by
      omega
    have haddr : len = 0 ∨ page * 4096 + buf % 4096 = buf := by omega
    have hsplit : len = min (4096 - buf % 4096) len + (len - min (4096 - buf % 4096) len) := by
      omega
    generalize min (4096 - buf % 4096) len = nbytes at *
    rcases ih _ _ _ (by omega) hrest with ⟨hzero, hcells⟩
    refine ⟨hzero, ?_⟩
    rw [List.map_cons, List.flatMap_cons, hcells]
    conv_rhs => rw [hsplit, cells_add]
    have hnext : BitVec.ofNat 64 (buf + nbytes) = BitVec.ofNat 64 buf + (nbytes : BitVec 64) :=
      BitVec.ofNat_add buf nbytes
    rw [hnext]
    rcases haddr with hempty | haddr
    . have hnone : nbytes = 0 := by omega
      rw [hnone]
      simp [Scatterlist.segment, Segment.cells]
    . rw [haddr]
      rfl

/-- Whether the pages of a buffer can be mapped: an empty buffer that starts a page has none. -/
def Iovec.Mappable (io : Iovec) : Prop := io.iovLen ≠ 0 ∨ io.iovBase % pageSize ≠ 0

instance (io : Iovec) : Decidable io.Mappable := inferInstanceAs (Decidable (_ ∨ _))

theorem pagesNr_eq {io : Iovec} (hlen : io.iovLen < 2 ^ 31)
    : pagesNr io.iovBase io.iovLen = (io.iovBase % 4096 + io.iovLen + 4095) / 4096 := by
  unfold pagesNr pageSize
  omega

variable {pin : PinPages} {io : Iovec}

theorem charSgdmaMapUserBufToSgl_of_mappable (hpin : ∀ buf nr, pin buf nr = .ok ())
    (hlen : io.iovLen < 2 ^ 31) (hmap : io.Mappable)
    : ∃ sgl, charSgdmaMapUserBufToSgl pin io.iovBase io.iovLen = .ok sgl
        ∧ (sgl.map Scatterlist.segment).flatMap Segment.cells = io.segment.cells := by
  unfold Iovec.Mappable pageSize at hmap
  have hspec := mapPages_spec ((io.iovBase % 4096 + io.iovLen + 4095) / 4096) (io.iovBase / 4096)
    io.iovBase io.iovLen (by omega) (by unfold pageSize; omega)
  unfold charSgdmaMapUserBufToSgl pageSize
  dsimp only
  rw [pagesNr_eq hlen, hpin, if_neg (by omega)]
  dsimp only
  rw [if_neg (by simp [hspec.1])]
  exact ⟨_, rfl, hspec.2⟩

theorem charSgdmaMapUserBufToSgl_of_not_mappable (hlen : io.iovLen < 2 ^ 31) (hmap : ¬ io.Mappable)
    : charSgdmaMapUserBufToSgl pin io.iovBase io.iovLen = .error .einval := by
  unfold Iovec.Mappable pageSize at hmap
  unfold charSgdmaMapUserBufToSgl
  dsimp only
  rw [pagesNr_eq hlen, if_pos (by omega)]

end MapUserBuf

section Loop

variable {pin : PinPages} {e : CharEngine} {pos : Nat} (write : Bool)

theorem Submission.pairs_of_cells {s : Submission} {io : Iovec}
    (h : (s.sgl.map Scatterlist.segment).flatMap Segment.cells = io.segment.cells)
    : s.pairs = io.segment.cells.zip (cells s.epAddr io.iovLen) := by
  have hlength := congrArg List.length h
  rw [length_flatMap_cells, Segment.cells, length_cells] at hlength
  unfold Submission.pairs sgTotal
  rw [h, hlength]
  rfl

/-- The pairs of the segments that are submitted, all of them from the position on. -/
def aioPairs (pos : Nat) (iov : List Iovec) : List (BitVec 64 × BitVec 64) :=
  (iov.takeWhile (fun io => io.Mappable)).flatMap
    (fun io => io.segment.cells.zip (cells (BitVec.ofNat 64 pos) io.iovLen))

theorem cdevAioLoop_pairs (hpin : ∀ buf nr, pin buf nr = .ok ()) (iov : List Iovec)
    (hlen : ∀ io ∈ iov, io.iovLen < 2 ^ 31)
    (halign : ∀ io ∈ iov, checkTransferAlign e io.iovBase io.iovLen pos true = .ok ())
    : (cdevAioLoop pin e pos write iov).1.flatMap Submission.pairs = aioPairs pos iov := by
  unfold aioPairs
  induction iov with
  | nil => rfl
  | cons io iov ih =>
    rw [List.forall_mem_cons] at hlen halign
    unfold cdevAioLoop cdevAioSegment
    rw [halign.1]
    dsimp only
    by_cases hmap : io.Mappable
    . rcases charSgdmaMapUserBufToSgl_of_mappable hpin hlen.1 hmap with ⟨sgl, hsgl, hcells⟩
      rw [hsgl, List.takeWhile_cons_of_pos (by simpa using hmap)]
      dsimp only
      rw [List.flatMap_cons, List.flatMap_cons, ih hlen.2 halign.2,
        Submission.pairs_of_cells hcells]
    . rw [charSgdmaMapUserBufToSgl_of_not_mappable hlen.1 hmap,
        List.takeWhile_cons_of_neg (by simpa using hmap)]
      rfl

theorem charSgdmaReadWrite_pairs (hpin : ∀ buf nr, pin buf nr = .ok ()) (hdir : e.dirOk write)
    {buf count : Nat} (hcount : count < 2 ^ 31)
    (halign : checkTransferAlign e buf count pos true = .ok ())
    : (∃ s, charSgdmaReadWrite pin e buf count pos write = .ok s
          ∧ s.pairs.map Prod.snd = cells (BitVec.ofNat 64 pos) count)
        ∨ (∃ err, charSgdmaReadWrite pin e buf count pos write = .error err) ∧ count = 0 := by
  unfold charSgdmaReadWrite
  rw [hdir, if_neg (by simp), halign]
  dsimp only
  by_cases hmap : (Iovec.mk buf count).Mappable
  . rcases charSgdmaMapUserBufToSgl_of_mappable hpin hcount hmap with ⟨sgl, hsgl, hcells⟩
    rw [hsgl]
    refine Or.inl ⟨_, rfl, ?_⟩
    rw [Submission.pairs_of_cells hcells, List.map_snd_zip]
    simp [Iovec.segment, Segment.cells]
  . have herr : charSgdmaMapUserBufToSgl pin buf count = .error .einval :=
      charSgdmaMapUserBufToSgl_of_not_mappable hcount hmap
    rw [herr]
    unfold Iovec.Mappable at hmap
    dsimp only at hmap
    exact Or.inr ⟨⟨_, rfl⟩, by omega⟩

end Loop

section Vector

/-- One segment has all the bytes, and those before it can be mapped. -/
def OneSegment (iov : List Iovec) : Prop :=
  ∃ pre io post, iov = pre ++ io :: post ∧ io.iovLen ≠ 0
    ∧ (∀ i ∈ pre, i.iovLen = 0 ∧ i.Mappable) ∧ ∀ i ∈ post, i.iovLen = 0

/-- The bytes of a vector, paired with the device addresses of the plain operation on them. -/
def plainPairs (iov : List Iovec) : Except Errno Submission → List (BitVec 64 × BitVec 64)
  | .ok s => (iovCells iov).zip (s.pairs.map Prod.snd)
  | .error _ => []

theorem iovTotal_append (iov iov' : List Iovec)
    : iovTotal (iov ++ iov') = iovTotal iov + iovTotal iov' := by
  simp [iovTotal, total]

theorem iovTotal_cons (io : Iovec) (iov : List Iovec)
    : iovTotal (io :: iov) = io.iovLen + iovTotal iov := rfl

theorem iovTotal_eq_zero_iff (iov : List Iovec)
    : iovTotal iov = 0 ↔ ∀ io ∈ iov, io.iovLen = 0 := by
  induction iov with
  | nil => simp [iovTotal]
  | cons io iov ih =>
    rw [iovTotal_cons, List.forall_mem_cons, ← ih]
    omega

theorem length_iovCells (iov : List Iovec)
    : (iovCells iov).length = iovTotal iov := by
  apply length_flatMap_cells

theorem mem_cells_iff {a d : BitVec 64} {n : Nat}
    : d ∈ cells a n ↔ ∃ k < n, d = a + (k : BitVec 64) := by
  unfold cells
  rw [List.mem_map]
  simp only [List.mem_range, eq_comm]

theorem aioPairs_of_empty {pos : Nat} {iov : List Iovec} (h : ∀ io ∈ iov, io.iovLen = 0)
    : aioPairs pos iov = [] := by
  unfold aioPairs
  rw [List.flatMap_eq_nil_iff]
  intro io hio
  rw [h io ((List.takeWhile_sublist _).subset hio)]
  simp

theorem iovCells_of_empty {iov : List Iovec} (h : ∀ io ∈ iov, io.iovLen = 0)
    : iovCells iov = [] := by
  apply List.eq_nil_of_length_eq_zero
  rw [length_iovCells]
  apply (iovTotal_eq_zero_iff iov).mpr h

theorem aioPairs_of_oneSegment {iov : List Iovec} (h : OneSegment iov)
    : aioPairs 0 iov = (iovCells iov).zip (cells 0 (iovTotal iov)) := by
  rcases h with ⟨pre, io, post, rfl, hne, hpre, hpost⟩
  have hmap : io.Mappable := Or.inl hne
  have htake : (pre ++ io :: post).takeWhile (fun io => io.Mappable)
      = pre ++ io :: post.takeWhile (fun io => io.Mappable) := by
    rw [List.takeWhile_append_of_pos, List.takeWhile_cons_of_pos (by simpa using hmap)]
    intro i hi
    simpa using (hpre i hi).2
  have hrest : aioPairs 0 post = [] := aioPairs_of_empty hpost
  have hzero : iovTotal pre = 0 ∧ iovTotal post = 0 :=
    ⟨(iovTotal_eq_zero_iff pre).mpr (fun i hi => (hpre i hi).1), (iovTotal_eq_zero_iff post).mpr hpost⟩
  have hcells : iovCells (pre ++ io :: post) = io.segment.cells := by
    have happend : iovCells (pre ++ io :: post)
        = iovCells pre ++ (io.segment.cells ++ iovCells post) := by simp [iovCells]
    rw [happend, iovCells_of_empty (fun i hi => (hpre i hi).1), iovCells_of_empty hpost]
    simp
  have hpre' : pre.flatMap (fun io => io.segment.cells.zip (cells (BitVec.ofNat 64 0) io.iovLen))
      = [] := by
    rw [List.flatMap_eq_nil_iff]
    intro i hi
    rw [(hpre i hi).1]
    simp
  unfold aioPairs at hrest ⊢
  rw [htake, List.flatMap_append, List.flatMap_cons, hpre', hrest, hcells, iovTotal_append,
    iovTotal_cons, hzero.1, hzero.2]
  simp

theorem mem_aioPairs_snd {iov : List Iovec} {d : BitVec 64}
    : d ∈ (aioPairs 0 iov).map Prod.snd
        ↔ ∃ io ∈ iov.takeWhile (fun io => io.Mappable), ∃ k < io.iovLen, d = (k : BitVec 64) := by
  have hsnd : ∀ io : Iovec, (io.segment.cells.zip (cells (BitVec.ofNat 64 0) io.iovLen)).map Prod.snd
      = cells 0 io.iovLen := by
    intro io
    rw [List.map_snd_zip]
    . rfl
    . simp [Iovec.segment, Segment.cells]
  unfold aioPairs
  rw [List.map_flatMap, List.mem_flatMap]
  simp only [hsnd, mem_cells_iff, zero_add]

theorem oneSegment_of_mem {iov : List Iovec} {io : Iovec}
    (hmem : io ∈ iov.takeWhile (fun io => io.Mappable)) (hlen : iovTotal iov ≤ io.iovLen)
    (hne : iovTotal iov ≠ 0)
    : OneSegment iov := by
  rcases List.append_of_mem hmem with ⟨pre, rest, hsplit⟩
  have hiov : iov = pre ++ io :: (rest ++ iov.dropWhile (fun io => io.Mappable)) := by
    conv_lhs => rw [← List.takeWhile_append_dropWhile (p := fun io => io.Mappable) (l := iov), hsplit]
    simp
  have htotal := congrArg iovTotal hiov
  rw [iovTotal_append, iovTotal_cons] at htotal
  refine ⟨pre, io, _, hiov, by omega, ?_, ?_⟩
  . intro i hi
    constructor
    . apply (iovTotal_eq_zero_iff pre).mp (by omega) i hi
    . have hpre : i ∈ iov.takeWhile (fun io => io.Mappable) := by
        rw [hsplit]
        exact List.mem_append_left _ hi
      have hall := List.all_eq_true.mp (List.all_takeWhile (p := fun io => io.Mappable) (l := iov)) i hpre
      simpa using hall
  . apply (iovTotal_eq_zero_iff _).mp (by omega)

theorem samePairs_of_addresses {iov : List Iovec} {pos : Nat} (hpos : pos < 2 ^ 63)
    (htotal : iovTotal iov < 2 ^ 31) (hne : iovTotal iov ≠ 0)
    (hlen : ∀ io ∈ iov, io.iovLen < 2 ^ 31)
    (hsame : ∀ d, (∃ io ∈ iov.takeWhile (fun io => io.Mappable), ∃ k < io.iovLen, d = (k : BitVec 64))
      ↔ d ∈ cells (BitVec.ofNat 64 pos) (iovTotal iov))
    : pos = 0 ∧ OneSegment iov := by
  have hbase : pos = 0 := by
    -- some segment has a byte, and the first of its bytes is at address 0
    have hfirst := (hsame (BitVec.ofNat 64 pos)).mpr (mem_cells_iff.mpr ⟨0, by omega, by simp⟩)
    rcases hfirst with ⟨io, hio, k, hk, _⟩
    rcases mem_cells_iff.mp ((hsame 0).mp ⟨io, hio, 0, by omega, rfl⟩) with ⟨j, hj, heq⟩
    have hsum := congrArg BitVec.toNat heq
    rw [BitVec.toNat_add, BitVec.natCast_eq_ofNat, BitVec.toNat_ofNat, BitVec.toNat_ofNat] at hsum
    have hzero : (0 : BitVec 64).toNat = 0 := rfl
    omega
  subst hbase
  refine ⟨rfl, ?_⟩
  -- the last address of the buffer is in a segment that is as long as the buffer
  have hlast := (hsame ((iovTotal iov - 1 : Nat) : BitVec 64)).mpr
    (mem_cells_iff.mpr ⟨iovTotal iov - 1, by omega, by simp⟩)
  rcases hlast with ⟨io, hio, k, hk, heq⟩
  have hsum := congrArg BitVec.toNat heq
  rw [BitVec.natCast_eq_ofNat, BitVec.natCast_eq_ofNat, BitVec.toNat_ofNat, BitVec.toNat_ofNat] at hsum
  have hbound := hlen io ((List.takeWhile_sublist _).subset hio)
  apply oneSegment_of_mem hio (by omega) hne

theorem iovLen_le_iovTotal {iov : List Iovec} {io : Iovec} (h : io ∈ iov)
    : io.iovLen ≤ iovTotal iov := by
  rcases List.append_of_mem h with ⟨pre, post, rfl⟩
  rw [iovTotal_append, iovTotal_cons]
  omega

variable (pin : PinPages) (e : CharEngine) (write : Bool) (iocb : Kiocb) (io : IovIter)

/-- `cdev_write_iter()` or `cdev_read_iter()`, what it submits. -/
def cdevIter : List Submission :=
  if write then (cdevWriteIter pin e iocb io).1 else (cdevReadIter pin e iocb io).1

/-- `char_sgdma_write()` or `char_sgdma_read()` -/
def charSgdma (buf count pos : Nat) : Except Errno Submission :=
  if write then charSgdmaWrite pin e buf count pos else charSgdmaRead pin e buf count pos

/--
The vectored operation moves the bytes of its vector to or from the device addresses that the plain
operation moves them to or from, as a set of pairs.
-/
def SamePairs (buf : Nat) : Prop :=
  ∀ x, x ∈ (cdevIter pin e write iocb io).flatMap Submission.pairs
    ↔ x ∈ plainPairs io.iov (charSgdma pin e write buf (iovTotal io.iov) iocb.kiPos)

/--
The vectored operation does what the plain one does on the same bytes exactly when there are no bytes,
or it starts at position 0 and one segment has them all, with nothing before it that cannot be mapped.
-/
theorem samePairs_iff (hpin : ∀ buf nr, pin buf nr = .ok ()) (hdir : e.dirOk write = true)
    (hpos : iocb.kiPos < 2 ^ 63) (hfresh : io.iovOffset = 0)
    (htotal : iovTotal io.iov < 2 ^ 31)
    (halign : ∀ i ∈ io.iov, checkTransferAlign e i.iovBase i.iovLen io.iovOffset true = .ok ())
    (buf : Nat) (hbuf : checkTransferAlign e buf (iovTotal io.iov) iocb.kiPos true = .ok ())
    : SamePairs pin e write iocb io buf
        ↔ iovTotal io.iov = 0 ∨ iocb.kiPos = 0 ∧ OneSegment io.iov := by
  have hlen : ∀ i ∈ io.iov, i.iovLen < 2 ^ 31 := by
    intro i hi
    have := iovLen_le_iovTotal hi
    omega
  have haio : (cdevIter pin e write iocb io).flatMap Submission.pairs = aioPairs 0 io.iov := by
    rw [hfresh] at halign
    have hloop := cdevAioLoop_pairs write hpin io.iov hlen halign
    unfold cdevIter cdevWriteIter cdevReadIter cdevAioWrite cdevAioRead
    unfold CharEngine.dirOk at hdir
    rw [hfresh]
    cases write <;> simpa [show e.dir = _ by simpa using hdir] using hloop
  have hplain : plainPairs io.iov (charSgdma pin e write buf (iovTotal io.iov) iocb.kiPos)
      = (iovCells io.iov).zip (cells (BitVec.ofNat 64 iocb.kiPos) (iovTotal io.iov)) := by
    have hsame : charSgdma pin e write buf (iovTotal io.iov) iocb.kiPos
        = charSgdmaReadWrite pin e buf (iovTotal io.iov) iocb.kiPos write := by
      cases write <;> rfl
    rw [hsame]
    rcases charSgdmaReadWrite_pairs write hpin hdir htotal hbuf with
      ⟨s, hs, hsnd⟩ | ⟨⟨err, herr⟩, hzero⟩
    . rw [hs, plainPairs, hsnd]
    . rw [herr, plainPairs, hzero]
      simp
  unfold SamePairs
  rw [haio, hplain]
  constructor
  . intro h
    by_cases hzero : iovTotal io.iov = 0
    . exact Or.inl hzero
    . apply Or.inr
      apply samePairs_of_addresses hpos htotal hzero hlen
      intro d
      have hcells : ((iovCells io.iov).zip
          (cells (BitVec.ofNat 64 iocb.kiPos) (iovTotal io.iov))).map Prod.snd
            = cells (BitVec.ofNat 64 iocb.kiPos) (iovTotal io.iov) := by
        rw [List.map_snd_zip]
        rw [length_iovCells, length_cells]
      rw [← mem_aioPairs_snd, ← hcells, List.mem_map, List.mem_map]
      simp only [h]
  . rintro (hzero | ⟨hbase, hone⟩) x
    . rw [hzero, aioPairs_of_empty ((iovTotal_eq_zero_iff io.iov).mp hzero)]
      simp
    . rw [hbase, aioPairs_of_oneSegment hone]
      rfl

/-- A vector with empty segments around its only bytes, which start a page. -/
theorem samePairs_iff_one_segment
    : SamePairs (fun _ _ => .ok ()) ⟨.toDevice, false, 1, 1⟩ true ⟨0⟩
        ⟨[⟨0x1001, 0⟩, ⟨0x2000, 5000⟩, ⟨0x3000, 0⟩], 0⟩ 0x8000 :=
  (samePairs_iff _ _ _ _ _ (fun _ _ => rfl) rfl (by decide) rfl (by decide) (by decide) _
    (by decide)).mpr (Or.inr ⟨rfl, [⟨0x1001, 0⟩], ⟨0x2000, 5000⟩, [⟨0x3000, 0⟩], by decide⟩)

/-- The second of two segments is written to device address 0 like the first, and not behind it. -/
theorem not_samePairs_two_segments
    : let e : CharEngine := ⟨.toDevice, false, 1, 1⟩
      let iov : List Iovec := [⟨0x1000, 8⟩, ⟨0x2000, 8⟩]
      (∀ i ∈ iov, checkTransferAlign e i.iovBase i.iovLen 0 true = .ok ())
        ∧ checkTransferAlign e 0x8000 (iovTotal iov) 0 true = .ok ()
        ∧ ¬ SamePairs (fun _ _ => .ok ()) e true ⟨0⟩ ⟨iov, 0⟩ 0x8000 := by
  intro e iov
  refine ⟨by decide, by decide, ?_⟩
  intro h
  have hpair := (h (0x2000, 0)).mp (by decide)
  revert hpair
  decide

end Vector

end Xdma
