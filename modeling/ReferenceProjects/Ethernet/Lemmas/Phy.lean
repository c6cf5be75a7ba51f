import ReferenceProjects.Ethernet.Lemmas.Phase

/-!
This module contains what an operation that is over amounts to on the MDIO bus.
-/

namespace Ethernet

/-- What an operation amounts to once it is over, up to what is read. -/
def Phy.expect (p : Phy) : Start → Phy
  | .reset => p
  | .access true addr data => p.see (.write (addr.setWidth 32) data)
  | .access false _ _ => p
  | .mdio op data _ =>
    (p.see (.write (mdioTxData.setWidth 32) data)).see
      (.write (mdioControl.setWidth 32) (mdioCommand op devAddr))

/-- What the run amounts to once the current operation is over. -/
def Monitor.settled (m : Monitor) : Phy :=
  (Phy.observe (m.past.flatMap Op.accesses)).expect m.op.start

section Command

theorem mdioCommand_fields (op : BitVec 2) (regAddr : BitVec 5)
    : (mdioCommand op regAddr).extractLsb' 14 2 = op
        ∧ (mdioCommand op regAddr).extractLsb' 16 5 = regAddr
        ∧ (mdioCommand op regAddr).getLsbD 11 = true
        ∧ (mdioCommand op regAddr).extractLsb' 24 5 = prtAddr := by
  revert op regAddr
  decide

theorem Phy.see_control (p : Phy) (op : BitVec 2)
    : p.see (.write (mdioControl.setWidth 32) (mdioCommand op devAddr))
        = p.initiate (mdioCommand op devAddr) := by
  have hne : mdioControl.setWidth 32 ≠ mdioTxData.setWidth 32 := by decide
  have hbit := (mdioCommand_fields op devAddr).2.2.1
  simp [Phy.see, hne, hbit]

@[simp]
theorem Phy.see_txData (p : Phy) (data : BitVec 32)
    : p.see (.write (mdioTxData.setWidth 32) data) = { p with txData := data } := by
  simp [Phy.see]

theorem Phy.initiate_command (p : Phy) (op : BitVec 2)
    : p.initiate (mdioCommand op devAddr)
        = if op = mdioOpAddr then
            { p with
                command := some op, lastRead := none
                address := some (devAddr, p.txData.setWidth 16) }
          else if op = mdioOpWr then
            { p with
                command := some op, lastRead := none
                writes := ⟨devAddr, p.address, p.txData.setWidth 16⟩ :: p.writes }
          else
            { p with command := some op, lastRead := none } := by
  have hfields := mdioCommand_fields op devAddr
  simp only [Phy.initiate, hfields.1, hfields.2.1]

variable (p : Phy) (op : BitVec 2) (data : BitVec 32) (addr : BitVec 17)

@[simp]
theorem Phy.expect_mdio_address
    : (p.expect (.mdio op data addr)).address
        = if op = mdioOpAddr then some (devAddr, data.setWidth 16) else p.address := by
  rw [Phy.expect, Phy.see_txData, Phy.see_control, Phy.initiate_command]
  split
  . rfl
  . split
    . rfl
    . rfl

@[simp]
theorem Phy.expect_mdio_writes
    : (p.expect (.mdio op data addr)).writes
        = if op = mdioOpWr then ⟨devAddr, p.address, data.setWidth 16⟩ :: p.writes else p.writes := by
  have hne : mdioOpWr ≠ mdioOpAddr := by decide
  rw [Phy.expect, Phy.see_txData, Phy.see_control, Phy.initiate_command]
  split
  . next haddr => simp [haddr, hne.symm]
  . split
    . rfl
    . rfl

theorem Phy.expect_mdio_command
    : (p.expect (.mdio op data addr)).command = some op := by
  rw [Phy.expect, Phy.see_txData, Phy.see_control, Phy.initiate_command]
  split
  . rfl
  . split
    . rfl
    . rfl

end Command

section Read

variable {p : Phy}

/-- Two observations that differ in what was read last only. -/
def Phy.SameButRead (p q : Phy) : Prop := ∃ x, p = { q with lastRead := x }

theorem Phy.SameButRead.address {q : Phy} (h : p.SameButRead q)
    : p.address = q.address := by
  rcases h with ⟨x, rfl⟩
  rfl

theorem Phy.SameButRead.writes {q : Phy} (h : p.SameButRead q)
    : p.writes = q.writes := by
  rcases h with ⟨x, rfl⟩
  rfl

theorem Phy.SameButRead.command {q : Phy} (h : p.SameButRead q)
    : p.command = q.command := by
  rcases h with ⟨x, rfl⟩
  rfl

theorem Phy.sameButRead_refl (p : Phy)
    : p.SameButRead p := ⟨p.lastRead, rfl⟩

theorem Phy.sameButRead_see_read (p : Phy) (addr rdata : BitVec 32)
    : (p.see (.read addr rdata)).SameButRead p := by
  simp only [Phy.see]
  split
  . exact ⟨some rdata, rfl⟩
  . apply Phy.sameButRead_refl

theorem Phy.SameButRead.trans {q r : Phy} (h : p.SameButRead q) (h' : q.SameButRead r)
    : p.SameButRead r := by
  rcases h with ⟨x, rfl⟩
  rcases h' with ⟨y, rfl⟩
  exact ⟨x, rfl⟩

theorem Polled.observe {op : BitVec 2} {data : BitVec 32} {addr : BitVec 17}
    {accesses : List BusAccess} (h : Polled op data addr accesses) (rest : List BusAccess)
    : (Phy.observe (accesses ++ rest)).SameButRead ((Phy.observe rest).expect (.mdio op data addr)) := by
  induction accesses with
  | nil => simp [Polled] at h
  | cons a accesses ih =>
    cases a with
    | read raddr rdata =>
      apply Phy.SameButRead.trans
      . apply Phy.sameButRead_see_read
      . apply ih
        unfold Polled at h
        apply h.2.2
    | write waddr wdata =>
      unfold Polled at h
      split at h
      . next heq =>
        simp only [List.cons.injEq, BusAccess.write.injEq] at heq
        obtain ⟨⟨haddr₁, hdata₁⟩, haccesses⟩ := heq
        rw [haccesses, haddr₁, hdata₁, h.1, h.2.1, h.2.2.1, h.2.2.2]
        apply Phy.sameButRead_refl
      . next heq => simp at heq
      . contradiction

theorem Op.Complete.observe {o : Op} (h : o.Complete) (rest : List BusAccess)
    : (Phy.observe (o.accesses ++ rest)).SameButRead ((Phy.observe rest).expect o.start) := by
  unfold Op.Complete at h
  split at h
  . next hstart =>
    rw [h, hstart]
    apply Phy.sameButRead_refl
  . next addr data hstart =>
    rw [h, hstart]
    apply Phy.sameButRead_refl
  . next addr data hstart =>
    rcases h with ⟨rdata, h⟩
    rw [h, hstart]
    apply Phy.sameButRead_see_read
  . next op data addr hstart =>
    rcases h with ⟨rdata, h⟩
    unfold MdioFrame at h
    split at h
    . next haccesses =>
      rw [haccesses, hstart]
      apply Phy.SameButRead.trans
      . apply Phy.sameButRead_see_read
      . apply h.2.2.2.observe
    . contradiction

theorem Monitor.phy_sameButRead {m : Monitor} (h : m.op.Complete)
    : m.phy.SameButRead m.settled := h.observe _

theorem Monitor.phy_lastRead {m : Monitor} {data rdata : BitVec 32}
    (hframe : MdioFrame mdioOpRd data mdioRxData rdata m.op.accesses)
    : m.phy.lastRead = some rdata := by
  unfold MdioFrame at hframe
  split at hframe
  . next raddr rdata' accesses haccesses =>
    have hrest := hframe.2.2.2.observe (m.past.flatMap Op.accesses)
    have hcommand := hrest.command
    rw [Phy.expect_mdio_command] at hcommand
    have hbit : rdata.getLsbD 16 = true := by
      have hready := hframe.2.2.1
      simpa [readyBit] using hready
    rw [Monitor.phy, Monitor.trace, haccesses, hframe.1, hframe.2.1]
    simp [Phy.observe, Phy.see, hbit, hcommand]
  . contradiction

end Read

end Ethernet
