import ReferenceProjects.Xdma.Impl.Desc

/-!
This module contains what the descriptor functions leave in the words of a descriptor.
-/

namespace Xdma

theorem xdmaGetNextAdj_lt (remaining : Nat) (nextLo : BitVec 32)
    : xdmaGetNextAdj remaining nextLo < 64 := by
  unfold xdmaGetNextAdj
  simp only [xdmaMaxAdjBlockSize]
  split <;> omega

theorem xdmaGetNextAdj_le (remaining : Nat) (nextLo : BitVec 32)
    : xdmaGetNextAdj remaining nextLo ≤ remaining - 1 := by
  unfold xdmaGetNextAdj
  split <;> simp

theorem nextIndex_eq (addr : BitVec 64)
    : ((pciDmaL addr &&& 0xfff) >>> 5).toNat % 64 = addr.toNat / 32 % 64 := by
  have hmask : (0xfff : BitVec 32).toNat = 2 ^ 12 - 1 := rfl
  rw [BitVec.toNat_ushiftRight, BitVec.toNat_and, hmask, Nat.and_two_pow_sub_one_eq_mod,
    Nat.shiftRight_eq_div_pow, pciDmaL_toNat]
  omega

theorem xdmaGetNextAdj_block (remaining : Nat) (addr : BitVec 64)
    : addr.toNat / 32 % 64 + xdmaGetNextAdj remaining (pciDmaL addr) < 64 := by
  unfold xdmaGetNextAdj
  simp only [xdmaMaxAdjBlockSize, nextIndex_eq]
  split <;> omega

/-- A control word with magic, the low byte `c` and the next-adjacent number `a`. -/
def controlWord (c : BitVec 32) (a : Nat) : BitVec 32 :=
  c ||| (0xAD4B0000 ||| (BitVec.ofNat 32 a <<< 8))

/-- The low bytes that `transfer_init()` writes. -/
def lowBytes : List (BitVec 32) := [0x13, 0x02, 0x00]

theorem lowBytes_forall {P : BitVec 32 → Prop} (hlast : P 0x13) (hflush : P 0x02) (hnone : P 0x00)
    : ∀ c ∈ lowBytes, P c := by
  intro c hc
  simp only [lowBytes, List.mem_cons, List.not_mem_nil, or_false] at hc
  rcases hc with rfl | rfl | rfl
  . exact hlast
  . exact hflush
  . exact hnone

theorem controlWord_fields
    : ∀ c ∈ lowBytes, ∀ a : Fin 64,
        controlWord c a >>> 16 = 0xAD4B
          ∧ ((controlWord c a >>> 8) &&& 0xff).toNat = a
          ∧ controlWord c a &&& lsByteMask = c := by
  apply lowBytes_forall <;> decide +kernel

theorem XdmaDesc.magic_controlWord {d : XdmaDesc} {c : BitVec 32} {a : Nat}
    (hd : d.control = controlWord c a) (hc : c ∈ lowBytes) (ha : a < 64)
    : d.magic = 0xAD4B := by
  unfold XdmaDesc.magic
  rw [hd]
  exact (controlWord_fields c hc ⟨a, ha⟩).1

theorem XdmaDesc.nextAdjacent_controlWord {d : XdmaDesc} {c : BitVec 32} {a : Nat}
    (hd : d.control = controlWord c a) (hc : c ∈ lowBytes) (ha : a < 64)
    : d.nextAdjacent = a := by
  unfold XdmaDesc.nextAdjacent
  rw [hd]
  exact (controlWord_fields c hc ⟨a, ha⟩).2.1

theorem XdmaDesc.lowByte_controlWord {d : XdmaDesc} {c : BitVec 32} {a : Nat}
    (hd : d.control = controlWord c a) (hc : c ∈ lowBytes) (ha : a < 64)
    : d.lowByte = c := by
  unfold XdmaDesc.lowByte
  rw [hd]
  exact (controlWord_fields c hc ⟨a, ha⟩).2.2

/-- The control byte that `transfer_init()` gives descriptor `i` of `n`. -/
def controlByte (eopFlush : Bool) (n i : Nat) : BitVec 32 :=
  if i + 1 = n then 0x13 else if eopFlush then 0x02 else 0x00

theorem controlByte_mem (eopFlush : Bool) (n i : Nat) : controlByte eopFlush n i ∈ lowBytes := by
  unfold controlByte
  split
  . decide
  . split <;> decide

theorem xdmaDescControlSet_magic (d : XdmaDesc) (hd : d.control = descMagic) (c : BitVec 32)
    (hc : c ∈ lowBytes)
    : keepOnError (xdmaDescControlSet d c) d = { d with control := descMagic ||| c } := by
  have hlow : ∀ c ∈ lowBytes, c &&& ~~~lsByteMask = 0 := by apply lowBytes_forall <;> decide
  have hmagic : descMagic &&& ~~~lsByteMask = descMagic := by decide
  simp only [xdmaDescControlSet, hlow c hc, ne_eq, not_true_eq_false, ↓reduceIte, keepOnError, hd,
    hmagic]

theorem xdmaDescAdjacent_magic (d : XdmaDesc) (c : BitVec 32) (hc : c ∈ lowBytes)
    (hd : d.control = descMagic ||| c) (a : Nat)
    : xdmaDescAdjacent d a = { d with control := controlWord c a } := by
  have hlow : ∀ c ∈ lowBytes, (descMagic ||| c) &&& 0x0000f0ff = c := by
    apply lowBytes_forall <;> decide
  simp only [xdmaDescAdjacent, hd, hlow c hc, controlWord]

/-- The bus address of the descriptor that follows descriptor `i` of `n` in the chain. -/
def chainNext (descBus : BitVec 64) (n i : Nat) : BitVec 64 :=
  if i + 1 = n then 0 else descBus + BitVec.ofNat 64 (32 * (i + 1))

theorem transferDescInit_of_mem (desc : Nat → XdmaDesc) (base : Nat) (descBus : BitVec 64)
    {i n : Nat} (hn : n ≤ 2048) (hi : i < n)
    : keepOnError (transferDescInit desc base descBus n) desc (base + i)
        =
      { desc (base + i) with
          nextLo := pciDmaL (chainNext descBus n i)
          nextHi := pciDmaH (chainNext descBus n i)
          bytes := 0
          control := descMagic
      } := by
  have hcount : ¬(n > 2048) := by omega
  simp only [transferDescInit, xdmaTransferMaxDesc, hcount, ↓reduceIte, keepOnError, chainNext]
  split
  . next hlast =>
    have : base + (n - 1) = base + i := by omega
    rw [this, Function.update_self, Loop.rewrite_of_ge _ _ _ (by omega)]
    rfl
  . rw [Function.update_of_ne (by omega), Loop.rewrite_of_mem _ _ _ (by omega)]

theorem transferDescInit_of_not_mem (desc : Nat → XdmaDesc) (base : Nat) (descBus : BitVec 64)
    {k n : Nat} (hn : 0 < n) (hk : k < base ∨ base + n ≤ k)
    : keepOnError (transferDescInit desc base descBus n) desc k = desc k := by
  unfold transferDescInit
  split
  . rfl
  . simp only [keepOnError]
    rw [Function.update_of_ne (by omega)]
    cases hk with
    | inl h => exact Loop.rewrite_of_lt _ _ _ h
    | inr h => exact Loop.rewrite_of_ge _ _ _ (by omega)

end Xdma
