import BengalTiger.Common
import BengalTiger.Lib.Allocator
import BengalTiger.Lib.BlockDevice
import BengalTiger.Lib.ByteMem
import BengalTiger.Lib.Exc
import BengalTiger.Lib.History
import BengalTiger.Lib.Lines
import BengalTiger.Lib.LinkTable
import BengalTiger.Lib.Mealy
import BengalTiger.Lib.Numeral
import BengalTiger.Lib.Raster
import BengalTiger.Lib.Recency
import BengalTiger.Lib.Ring
import BengalTiger.Lib.RingBuffer
import BengalTiger.Lib.System
import BengalTiger.Lib.TwoLevel
import BengalTiger.Lib.WordBitmap
import BengalTiger.Lib.X86
import BengalTiger.Lib.Zipper
import BengalTiger.CString
import BengalTiger.Memcpy
import BengalTiger.Klog
import BengalTiger.Pmm
import BengalTiger.PmmRun
import BengalTiger.Paging.Model
import BengalTiger.Paging.Refine
import BengalTiger.Heap.Model
import BengalTiger.Heap.Blocks
import BengalTiger.Heap.Rep
import BengalTiger.Heap.Ops
import BengalTiger.Heap.Calls
import BengalTiger.Heap.Grant
import BengalTiger.Heap.Aligned
import BengalTiger.Heap.Session
import BengalTiger.Heap.Run
import BengalTiger.Heap.Limits
import BengalTiger.Sched.Model
import BengalTiger.Sched.Inv
import BengalTiger.Sched.Ops
import BengalTiger.Sched.Reap
import BengalTiger.Sched.Run
import BengalTiger.Sched.Switch
import BengalTiger.Nic.Tx
import BengalTiger.Nic.TxRun
import BengalTiger.Nic.Ring
import BengalTiger.Net.Arp
import BengalTiger.Net.Packet
import BengalTiger.Net.Checksum
import BengalTiger.Net.IpText
import BengalTiger.Net.Model
import BengalTiger.Net.Frame
import BengalTiger.Net.Options
import BengalTiger.Net.Receive
import BengalTiger.Net.Agree
import BengalTiger.Net.Dhcp
import BengalTiger.Net.Term
import BengalTiger.Net.Echo
import BengalTiger.Net.Ping
import BengalTiger.Nic.Rx
import BengalTiger.Disk
import BengalTiger.Fat.Name
import BengalTiger.Fat.Model
import BengalTiger.Fat.Mount
import BengalTiger.Fat.Table
import BengalTiger.Fat.Layout
import BengalTiger.Fat.Volume
import BengalTiger.Fat.VolumeOps
import BengalTiger.Fat.Holds
import BengalTiger.Fat.Chains
import BengalTiger.Fat.Directory
import BengalTiger.Fat.Calls
import BengalTiger.Fat.Format
import BengalTiger.Fat.Run
import BengalTiger.Fat.Rename
import BengalTiger.Fat.Listing
import BengalTiger.Fat.Atomic
import BengalTiger.Fat.Room
import BengalTiger.Fat.Closed
import BengalTiger.Fat.Relocate
import BengalTiger.Fat.Mkfs
import BengalTiger.Fat.Buffers
import BengalTiger.Fat.Untrusted
import BengalTiger.Fat.Partition
import BengalTiger.Keyboard
import BengalTiger.Input
import BengalTiger.Input.Rings
import BengalTiger.Editor
import BengalTiger.Editor.Buffer
import BengalTiger.Shell.Line
import BengalTiger.Shell.Calc
import BengalTiger.Shell.CalcDraft
import BengalTiger.Shell.CalcRun
import BengalTiger.Shell.CalcParse
import BengalTiger.Shell.CalcCorrect
import BengalTiger.Shell.CalcErrors
import BengalTiger.Number
import BengalTiger.Shell.Command
import BengalTiger.Shell.User
import BengalTiger.Shell.Complete
import BengalTiger.Font
import BengalTiger.Vbe
import BengalTiger.Vbe.Fast
import BengalTiger.Mouse
import BengalTiger.Console
import BengalTiger.Interrupt.Stub
import BengalTiger.Interrupt.Pic
import BengalTiger.Timer
