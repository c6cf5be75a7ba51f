import ReferenceProjects.Lib.Ledger
import ReferenceProjects.Xdma.Defs
import Mathlib.Logic.Function.Basic

/-!
This module contains how the BARs of a device are mapped, and how it is told by their positions what each of
them is: `map_bars()` and `unmap_bars()` with what they call.
-/

namespace Xdma

abbrev BarCall := Ledger.Call Nat

/-- The BARs of a device: their lengths, which of them can be mapped, and the identifiers read there. -/
structure PciBars where
  len : Nat → Nat
  iomap : Nat → Bool
  irqId : Nat → BitVec 32
  cfgId : Nat → BitVec 32

/-- `struct xdma_dev`, the BARs, with the calls so far, the latest first. -/
structure Bars where
  bar : Nat → Bool
  configBarIdx : Int
  userBarIdx : Int
  bypassBarIdx : Int
  calls : List BarCall

/-- As `alloc_dev_instance()` leaves them. -/
def Bars.init : Bars := ⟨fun _ => false, -1, -1, -1, []⟩

def xdmaBarNum : Nat := 6

def xdmaBarSize : Nat := 0x8000

def intMax : Nat := 2147483647

def irqBlockId : BitVec 32 := 0x1fc20000

def configBlockId : BitVec 32 := 0x1fc30000

/-- `unmap_bars()`, over `n` BARs from number `i` on. -/
def unmapBarsLoop : (n i : Nat) → Bars → Bars
  | 0, _, s => s
  | n + 1, i, s =>
    unmapBarsLoop n (i + 1)
      (if s.bar i then { s with bar := Function.update s.bar i false, calls := .release i :: s.calls } else s)

def unmapBars (s : Bars) : Bars := unmapBarsLoop xdmaBarNum 0 s

variable (p : PciBars)

/-- `map_single_bar()` -/
def mapSingleBar (s : Bars) (idx : Nat) : Bars × Int :=
  let barLen := p.len idx
  let s := { s with bar := Function.update s.bar idx false }
  -- do not map BARs with length 0
  if barLen = 0 then
    (s, 0)
  else
    let mapLen := if barLen > intMax then intMax else barLen
    let ok := p.iomap idx
    ({ s with bar := Function.update s.bar idx ok, calls := .acquire idx ok :: s.calls },
      if ok then (mapLen : Int) else -1)

/-- `is_config_bar()`; only the ids are compared, not the version number. -/
def isConfigBar (idx : Nat) : Bool :=
  p.irqId idx &&& 0xffff0000 == irqBlockId && p.cfgId idx &&& 0xffff0000 == configBlockId

/-- `identify_bars()` -/
def identifyBars (s : Bars) (barIdList : List Nat) (configBarPos : Nat) : Bars :=
  let barId (k : Nat) : Int := ((barIdList[k]?).getD 0 : Nat)
  let numBars := barIdList.length
  match numBars with
  | 2 =>
    if configBarPos = 0 then
      { s with bypassBarIdx := barId 1 }
    else if configBarPos = 1 then
      { s with userBarIdx := barId 0 }
    else
      s
  | 3 | 4 =>
    if configBarPos = 1 ∨ configBarPos = 2 then
      -- user bar at bar #0, bypass bar at the last bar
      { s with userBarIdx := barId 0, bypassBarIdx := barId (numBars - 1) }
    else
      s
  | _ => s

/--
The loop of `map_bars()` over `n` BARs from number `i` on, with `bar_id_list` and `config_bar_pos`; `none`
when a BAR cannot be mapped.
-/
def mapBarsLoop : (n i : Nat) → Bars → List Nat → Nat → Bars × Option (List Nat × Nat)
  | 0, _, s, barIdList, configBarPos => (s, some (barIdList, configBarPos))
  | n + 1, i, s, barIdList, configBarPos =>
    let (s, barLen) := mapSingleBar p s i
    if barLen = 0 then
      mapBarsLoop n (i + 1) s barIdList configBarPos
    else if barLen < 0 then
      (s, none)
    -- try to identify BAR as XDMA control BAR
    else if xdmaBarSize ≤ barLen ∧ s.configBarIdx < 0 ∧ isConfigBar p i then
      mapBarsLoop n (i + 1) { s with configBarIdx := i } (barIdList ++ [i]) barIdList.length
    else
      mapBarsLoop n (i + 1) s (barIdList ++ [i]) configBarPos

/-- `map_bars()` -/
def mapBars (s : Bars) : Bars × Option Errno :=
  match mapBarsLoop p xdmaBarNum 0 s [] 0 with
  | (s, none) => (unmapBars s, some .einval)
  | (s, some (barIdList, configBarPos)) =>
    -- the XDMA config BAR must always be present
    if s.configBarIdx < 0 then
      (unmapBars s, some .einval)
    else
      (identifyBars s barIdList configBarPos, none)

end Xdma
