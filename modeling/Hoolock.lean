import Hoolock.Transition
import Hoolock.CircularList
import Hoolock.Kernel
import Hoolock.NetDevice
import Hoolock.SlaveRing
import Hoolock.ActiveSlave
import Hoolock.Membership
import Hoolock.Dispatch
import Hoolock.Handover
import Hoolock.Monitor
import Hoolock.Ioctl
import Hoolock.Session
import Hoolock.LockBalance
import Hoolock.Switching
import Hoolock.Reachable
import Hoolock.Joining
import Hoolock.Leaving
import Hoolock.Lifetime
import Hoolock.Failover
import Hoolock.NullActive
import Hoolock.HandoverFlag
import Hoolock.DeliveryPlan
import Hoolock.PassEffect
import Hoolock.References
import Hoolock.Replay
import Hoolock.ExactlyOnce
import Hoolock.InOrder
import Hoolock.LockProgram
import Hoolock.Deadlock
import Hoolock.Client
import Hoolock.TwoCards
import Hoolock.Agreement
import Hoolock.MakeBeforeBreak
import Hoolock.Integrity
import Hoolock.Flush
import Hoolock.MakeOutcome
import Hoolock.EnslavePaths
import Hoolock.FailedEnslave
import Hoolock.Eligible
import Hoolock.DevIoctl
import Hoolock.FilterMoves
import Hoolock.BlackHole
import Hoolock.MulticastList
import Hoolock.FilterAccount
import Hoolock.FilterRuns
import Hoolock.OldSlave
import Hoolock.DesignatedSwitch
import Hoolock.BreakResult
import Hoolock.OwnTraffic
import Hoolock.Transmit
import Hoolock.Transfer
import Hoolock.Digits
import Hoolock.HexMac
import Hoolock.RequestFrame
import Hoolock.Framing
import Hoolock.Custody
import Hoolock.PlumbLedger
import Hoolock.XmitTest
import Hoolock.Rollback
import Hoolock.SlaveSettings
import Hoolock.RoundRobin
import Hoolock.XmitModes
import Hoolock.CommandQueue
import Hoolock.HardHandover
import Hoolock.MobileSpec
import Hoolock.HandoverSpec
import Hoolock.VlanFeatures
import Hoolock.Vlans
import Hoolock.ArpMonitor
import Hoolock.CyclicSearch
import Hoolock.ArpSearch
import Hoolock.LinkDelays
