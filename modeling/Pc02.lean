import Pc02.Lib.Machine
import Pc02.Lib.SortedQueue
import Pc02.Lib.Memory
import Pc02.Lib.ByteOrder
import Pc02.Lib.Links
import Pc02.Lib.Ring
import Pc02.Lib.Lockstep
import Pc02.Lib.Ownership
import Pc02.Lib.Waiting
import Pc02.Timer.QueueOrder
import Pc02.Timer.Wakeup
import Pc02.Timer.Pool
import Pc02.Timer.Delete
import Pc02.Timer.Death
import Pc02.Timer.Refinement
import Pc02.Timer.Phase
import Pc02.Timer.Firing
import Pc02.Timer.Deadlock
import Pc02.Timer.Backlog
import Pc02.Timer.Change
import Pc02.Timer.FailedAdd
import Pc02.Timer.Handlers
import Pc02.Timer.Capacity
import Pc02.Timer.Links
import Pc02.Timer.Process
import Pc02.Timer.Handles
import Pc02.Timer.Clocks
import Pc02.Net.Grammar
import Pc02.Net.Segmentation
import Pc02.Net.Connection
import Pc02.Queue.Delivery
import Pc02.Queue.Deadline
import Pc02.Queue.Names
import Pc02.Usb.StartUp
import Pc02.Config.ReaderCfg
import Pc02.Tlv.RoundTrip
import Pc02.Tlv.PutSize
import Pc02.Tlv.Freeze
import Pc02.Tlv.GetterBounds
import Pc02.Tlv.HostOrder
import Pc02.Tlv.KeyListHeap
import Pc02.Tlv.KeyListMap
import Pc02.Tlv.BoxMemory
import Pc02.Tlv.KeyListLife
import Pc02.Thread.Once
