import ReferenceProjects.Lib.Ledger
import ReferenceProjects.Xdma.Impl.Sgdma

/-!
This module contains the pages of a user buffer: `char_sgdma_map_user_buf_to_sgl()` in the words of the
machine, with what it allocates and pins, and `char_sgdma_unmap_user_buf()`, which releases it.
-/

namespace Xdma

/-- An entry of a scatter list as `sg_set_page()` leaves it; `page` names a `struct page`. -/
structure SgPage where
  page : Nat
  length : BitVec 32
  offset : BitVec 32
  deriving DecidableEq, Repr

/-- `struct xdma_io_cb`, the buffer and its pages; an entry of `pages` is `NULL` before it is pinned. -/
structure XdmaIoCb where
  buf : BitVec 64
  len : BitVec 64
  pagesNr : BitVec 32
  sgl : List SgPage
  pages : Option (List (Option Nat))
  deriving DecidableEq, Repr

/-- An I/O control block that was cleared and given its buffer. -/
def XdmaIoCb.ofBuf (buf len : BitVec 64) : XdmaIoCb := ⟨buf, len, 0, [], none⟩

/-- What a mapping holds: the scatter table, the array of pages, and the pin on one of these. -/
inductive MapRes where
  | sgTable
  | pages
  | page (i : Nat)
  deriving DecidableEq, Repr

abbrev MapCall := Ledger.Call MapRes

/--
What the kernel answers one mapping: whether `sg_alloc_table()` and `kcalloc()` find the memory, and what
`get_user_pages_fast()` returns, with the pages that it pinned.
-/
structure PinKernel where
  sgAllocTable : BitVec 32 → Bool
  kcalloc : BitVec 32 → Bool
  getUserPagesFast : BitVec 64 → BitVec 32 → Int × List Nat

/-- `PAGE_MASK` -/
def pageMask : BitVec 64 := ~~~0xfff

/-- `offset_in_page()` -/
def offsetInPage (buf : BitVec 64) : BitVec 32 := (buf &&& ~~~pageMask).setWidth 32

/-- `pages_nr` -/
def XdmaIoCb.pagesNrOf (buf len : BitVec 64) : BitVec 32 :=
  ((buf + len + 4096 - 1 - (buf &&& pageMask)) >>> 12).setWidth 32

/-- `min_t(unsigned int, PAGE_SIZE - offset, len)` -/
def sgBytes (offset : BitVec 32) (len : BitVec 64) : BitVec 32 :=
  if 4096 - offset < len.setWidth 32 then 4096 - offset else len.setWidth 32

/-- The loop that fills the scatter list with the pages, and `len` after it. -/
def sgSetPages : List Nat → (buf len : BitVec 64) → List SgPage × BitVec 64
  | [], _, len => ([], len)
  | page :: pages, buf, len =>
    let offset := offsetInPage buf
    let nbytes := sgBytes offset len
    let (sgl, rest) := sgSetPages pages (buf + nbytes.setWidth 64) (len - nbytes.setWidth 64)
    (⟨page, nbytes, offset⟩ :: sgl, rest)

/-- The loop that looks for a page that comes twice in a row. -/
def duplicatePages : List Nat → Bool
  | [] => false
  | [_] => false
  | page :: page' :: pages => page == page' || duplicatePages (page' :: pages)

/-- The pages that `char_sgdma_unmap_user_buf()` puts, up to one that is `NULL`. -/
def putPages (pages : List (Option Nat)) (pagesNr : Nat) : List MapRes :=
  (List.range ((pages.take pagesNr).takeWhile Option.isSome).length).map .page

/-- `char_sgdma_unmap_user_buf()`, with the calls so far, the latest first. -/
def charSgdmaUnmapUserBuf (cb : XdmaIoCb) (calls : List MapCall) : XdmaIoCb × List MapCall :=
  let calls := .release .sgTable :: calls
  match cb.pages with
  | none => (cb, calls)
  | some pages =>
    if cb.pagesNr = 0 then
      (cb, calls)
    else
      let calls := Ledger.releaseAll (putPages pages cb.pagesNr.toNat) calls
      ({ cb with pages := none }, .release .pages :: calls)

/-- What `char_sgdma_map_user_buf_to_sgl()` returns and leaves behind. -/
structure MapResult where
  rv : Int
  cb : XdmaIoCb
  calls : List MapCall
  deriving DecidableEq, Repr

/-- The exit `err_out`. -/
def mapErrOut (rv : Int) (cb : XdmaIoCb) (calls : List MapCall) : MapResult :=
  let (cb, calls) := charSgdmaUnmapUserBuf cb calls
  ⟨rv, cb, calls⟩

/-- `char_sgdma_map_user_buf_to_sgl()` -/
def XdmaIoCb.charSgdmaMapUserBufToSgl (k : PinKernel) (cb : XdmaIoCb) : MapResult :=
  let nr := XdmaIoCb.pagesNrOf cb.buf cb.len
  if nr = 0 then
    ⟨-22, cb, []⟩
  else if !k.sgAllocTable nr then
    ⟨-12, cb, [.acquire .sgTable false]⟩
  else
    let calls := [.acquire .sgTable true]
    if !k.kcalloc nr then
      mapErrOut (-12) cb (.acquire .pages false :: calls)
    else
      let (rv, pinned) := k.getUserPagesFast cb.buf nr
      let pages := pinned.map some ++ List.replicate (nr.toNat - pinned.length) none
      let cb := { cb with pages := some pages }
      let calls := Ledger.acquireAll (fun _ => true) ((List.range pinned.length).map .page)
        (.acquire .pages true :: calls)
      if rv < 0 then
        -- no pages were pinned
        mapErrOut rv cb calls
      else if rv ≠ nr.toNat then
        -- less pages pinned than wanted
        mapErrOut (-14) { cb with pagesNr := BitVec.ofInt 32 rv } calls
      else if duplicatePages pinned then
        mapErrOut (-14) { cb with pagesNr := nr } calls
      else
        let (sgl, rest) := sgSetPages pinned cb.buf cb.len
        if rest ≠ 0 then
          ⟨-22, { cb with sgl := sgl }, calls⟩
        else
          ⟨0, { cb with sgl := sgl, pagesNr := nr }, calls⟩

end Xdma
