import Ustack.Types
import Ustack.Blocks
import Ustack.MachineInt
import Ustack.Hashtable
import Ustack.Cyclic
import Ustack.Runs
import Ustack.Buckets
import Ustack.PortRange
import Ustack.MemPool
import Ustack.Interface
import Ustack.Bytes
import Ustack.Packet
import Ustack.Parser
import Ustack.Dispatch
import Ustack.LfQueue
import Ustack.PendingList
import Ustack.StartUp
import Ustack.Vserver
import Ustack.Timer
import Ustack.Connection
import Ustack.Creation
import Ustack.Containers
import Ustack.Lookup
import Ustack.SelfTuples
import Ustack.Checksum
import Ustack.Arp
import Ustack.Process
import Ustack.LifeCycle
import Ustack.Origin
import Ustack.Translation
import Ustack.Driver
import Ustack.Rings
import Ustack.Patterns
import Ustack.TcpClose
import Ustack.OnesComplement
import Ustack.ChecksumVerify
import Ustack.FullNat
import Ustack.Exchange
import Ustack.Flow
import Ustack.Ledger
import Ustack.MainLoop
import Ustack.Conservation
import Ustack.Order
import Ustack.PortHandOut
import Ustack.PoolHeap
import Ustack.TimerWheel
import Ustack.VserverMap
import Ustack.NetGlobal
import Ustack.Network
import Ustack.ArpNetwork
import Ustack.ArpRoutes
import Ustack.NetMap
import Ustack.DescMap
import Ustack.Descriptors
import Ustack.DriverMemory
import Ustack.Accesses
import Ustack.HashWords
import Ustack.ListHead
import Ustack.PointerRings
import Ustack.ListCalls
import Ustack.PacketMemory
import Ustack.QueueLayout
import Ustack.ServerHeap
import Ustack.ServerPools
import Ustack.PoolAdds
import Ustack.PoolFrees
import Ustack.RoundRobin
import Ustack.Lifetime
import Ustack.Ownership
