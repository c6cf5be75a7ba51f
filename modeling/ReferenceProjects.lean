import ReferenceProjects.Lib.Run
import ReferenceProjects.Lib.Loop
import ReferenceProjects.Lib.Copy
import ReferenceProjects.Lib.Ring
import ReferenceProjects.Xdma.Defs
import ReferenceProjects.Xdma.Impl.Desc
import ReferenceProjects.Xdma.Impl.Transfer
import ReferenceProjects.Xdma.Impl.Engine
import ReferenceProjects.Xdma.Impl.Hardware
import ReferenceProjects.Xdma.Impl.Queue
import ReferenceProjects.Xdma.Impl.Request
import ReferenceProjects.Xdma.Impl.Submit
import ReferenceProjects.Xdma.Impl.Service
import ReferenceProjects.Xdma.Impl.System
import ReferenceProjects.Xdma.Impl.Perf
import ReferenceProjects.Xdma.Lemmas.Desc
import ReferenceProjects.Xdma.Lemmas.Transfer
import ReferenceProjects.Xdma.Lemmas.Engine
import ReferenceProjects.Xdma.Lemmas.Request
import ReferenceProjects.Xdma.Lemmas.Queue
import ReferenceProjects.Xdma.Lemmas.Submit
import ReferenceProjects.Xdma.Lemmas.Service
import ReferenceProjects.Xdma.Lemmas.System
import ReferenceProjects.Xdma.Lemmas.Step
import ReferenceProjects.Xdma.Fetch
import ReferenceProjects.Xdma.Scatter
import ReferenceProjects.Xdma.Verdict
import ReferenceProjects.Xdma.Unlink
import ReferenceProjects.Xdma.Attend
import ReferenceProjects.Xdma.Account
import ReferenceProjects.Xdma.Ring
import ReferenceProjects.Xdma.Eop
import ReferenceProjects.Xdma.Impl.Sgdma
import ReferenceProjects.Xdma.Vector
import ReferenceProjects.Xdma.Impl.Aio
import ReferenceProjects.Xdma.Aio
import ReferenceProjects.Lib.Ledger
import ReferenceProjects.Xdma.Impl.Irq
import ReferenceProjects.Xdma.Irq
import ReferenceProjects.Xdma.Offline
import ReferenceProjects.Lib.Handshake
import ReferenceProjects.Ethernet.Defs
import ReferenceProjects.Ethernet.Impl
import ReferenceProjects.Ethernet.Bus
import ReferenceProjects.Ethernet.Lemmas.Access
import ReferenceProjects.Ethernet.Lemmas.Phase
import ReferenceProjects.Ethernet.Lemmas.Phy
import ReferenceProjects.Ethernet.Lemmas.Main
import ReferenceProjects.Ethernet.Lemmas.System
import ReferenceProjects.Ethernet.Frame
import ReferenceProjects.Ethernet.Outstanding
import ReferenceProjects.Ethernet.Pcs
import ReferenceProjects.Tools.Impl
import ReferenceProjects.Tools.File
import ReferenceProjects.Tools.Transfer
import ReferenceProjects.Tools.Position
import ReferenceProjects.Tools.ReturnCode
import ReferenceProjects.Xdma.Impl.Cdev
import ReferenceProjects.Xdma.Lemmas.Cdev
import ReferenceProjects.Xdma.Interfaces
import ReferenceProjects.Lib.Blocks
import ReferenceProjects.Lib.Latch
import ReferenceProjects.Lib.Mailbox
import ReferenceProjects.Xdma.Impl.Poll
import ReferenceProjects.Xdma.Poll
import ReferenceProjects.Xdma.Impl.Events
import ReferenceProjects.Xdma.Events
import ReferenceProjects.Xdma.Fault
import ReferenceProjects.Xdma.Impl.Pages
import ReferenceProjects.Xdma.Pages
import ReferenceProjects.Xdma.Estimate
import ReferenceProjects.Xdma.Align
import ReferenceProjects.Xdma.Modes
import ReferenceProjects.Xdma.Impl.Thread
import ReferenceProjects.Xdma.Xthread
import ReferenceProjects.Xdma.Kthreads
import ReferenceProjects.Xdma.Workload
import ReferenceProjects.Lib.Bits
import ReferenceProjects.Xdma.Impl.Xvc
import ReferenceProjects.Xdma.Xvc
import ReferenceProjects.Xdma.Impl.Ctrl
import ReferenceProjects.Xdma.Ctrl
import ReferenceProjects.Lib.Fill
import ReferenceProjects.Xdma.Impl.Bypass
import ReferenceProjects.Xdma.Bypass
import ReferenceProjects.Lib.Sprint
import ReferenceProjects.Lib.Store
import ReferenceProjects.Xdma.Impl.StatusDump
import ReferenceProjects.Xdma.StatusDump
import ReferenceProjects.Xdma.Impl.Nowait
import ReferenceProjects.Xdma.Nowait
import ReferenceProjects.Xdma.Impl.Measure
import ReferenceProjects.Xdma.Undo
import ReferenceProjects.Xdma.Measure
import ReferenceProjects.Xdma.Impl.Vectored
import ReferenceProjects.Xdma.Reclaim
import ReferenceProjects.Xdma.Unmap
import ReferenceProjects.Xdma.Impl.Machine
import ReferenceProjects.Xdma.Lemmas.Hardware
import ReferenceProjects.Xdma.Lemmas.Buffer
import ReferenceProjects.Xdma.Machine
import ReferenceProjects.Xdma.Impl.Probe
import ReferenceProjects.Xdma.Probe
import ReferenceProjects.Lib.Dispatch
import ReferenceProjects.Xdma.Impl.Interrupt
import ReferenceProjects.Xdma.Lemmas.Interrupt
import ReferenceProjects.Xdma.Interrupt
import ReferenceProjects.Xdma.Impl.Bars
import ReferenceProjects.Xdma.Bars
import ReferenceProjects.Lib.Table
import ReferenceProjects.Xdma.Impl.Device
import ReferenceProjects.Xdma.Device
import ReferenceProjects.Xdma.Completion
import ReferenceProjects.Xdma.Impl.Msix
import ReferenceProjects.Xdma.Msix
import ReferenceProjects.Xdma.Window
import ReferenceProjects.Xdma.Impl.Open
import ReferenceProjects.Xdma.Open
import ReferenceProjects.UdpClient.Impl
import ReferenceProjects.UdpClient.Session
import ReferenceProjects.AxiDma.Impl
import ReferenceProjects.AxiDma.Branch
