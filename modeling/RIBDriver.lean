import RIBDriver.Common.Fifo
import RIBDriver.Common.HeapList.Accounts
import RIBDriver.Common.HeapList.Refinement
import RIBDriver.Common.HeapList.Reversal
import RIBDriver.Common.HeapList.Sizes
import RIBDriver.Mac.Both
import RIBDriver.Mac.Drift
import RIBDriver.Module.Registration
import RIBDriver.Rt.Access.Life
import RIBDriver.Rt.Access.Bounds
import RIBDriver.Rt.Access.Both
import RIBDriver.Rt.Access.Turns
import RIBDriver.Rt.Export
import RIBDriver.Rt.InMemory.Accounts
import RIBDriver.Rt.Info
import RIBDriver.Rt.Ioctl.Exactness
import RIBDriver.Rt.Ioctl.Notice
import RIBDriver.Rt.Ioctl.Quiescence
import RIBDriver.Rt.Ioctl.Rest
import RIBDriver.Rt.Ioctl.Service
import RIBDriver.Rt.Ioctl.Wakeup
import RIBDriver.Rt.Ioctl.Work
import RIBDriver.Rt.Lifetime
import RIBDriver.Rt.Lookup
import RIBDriver.Rt.Paths
import RIBDriver.Rt.Poll.Agreement
import RIBDriver.Rt.Poll.Loss
import RIBDriver.Rt.Poll.Partition
import RIBDriver.Rt.Poll.Rotation
import RIBDriver.Rt.Poll.Stream
import RIBDriver.Rt.Readiness
import RIBDriver.Rt.Select.Rest
import RIBDriver.Rt.Select.Work
import RIBDriver.Userspace.Monitor
import RIBDriver.Userspace.Subscription
import RIBDriver.Userspace.ThreadPool
