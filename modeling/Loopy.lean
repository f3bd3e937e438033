import Loopy.Lib.Run
import Loopy.Lib.BinHeap
import Loopy.Lib.Ring
import Loopy.Lib.Places
import Loopy.Lib.Tenancy
import Loopy.Lib.Total
import Loopy.Lib.Chain
import Loopy.Lib.Bits
import Loopy.Lib.Transducer
import Loopy.Lib.Keyed
import Loopy.Lib.Bytes
import Loopy.Lib.Memory
import Loopy.Lib.Custody
import Loopy.Lib.LinkedQueue
import Loopy.Lib.DoublyLinked
import Loopy.Lib.Descriptors
import Loopy.Lib.Inodes
import Loopy.Lib.Loops
import Loopy.Lib.Sleepers
import Loopy.Lib.Refinement
import Loopy.Lib.Bell
import Loopy.MaxHeap.Basic
import Loopy.MaxHeap.Theorems
import Loopy.MaxHeap.Refinement
import Loopy.EventLoop.Basic
import Loopy.EventLoop.Theorems
import Loopy.Epoll.Adapter
import Loopy.Epoll.Registration
import Loopy.EventLoop.Machine
import Loopy.EventLoop.Transitions
import Loopy.EventLoop.Readiness
import Loopy.Epoll.Poll
import Loopy.Epoll.Timeout
import Loopy.EventLoop.Descriptors
import Loopy.Dispatch.ClientData
import Loopy.Dispatch.Batch
import Loopy.Dispatch.Ready
import Loopy.Dispatch.Deletion
import Loopy.Kqueue.Adapter
import Loopy.Select.Adapter
import Loopy.Select.Bounds
import Loopy.Signal.Basic
import Loopy.Signal.Oneshot
import Loopy.Evport.Adapter
import Loopy.Evport.Association
import Loopy.EventLoop.Backends
import Loopy.IoUring.Basic
import Loopy.IoUring.Machine
import Loopy.IoUring.Transitions
import Loopy.IoUring.Theorems
import Loopy.IoUring.Completions
import Loopy.IoUring.Slots
import Loopy.IoUring.Tracking
import Loopy.IoUring.Operations
import Loopy.IoUring.Submission
import Loopy.IoUring.Firing
import Loopy.IoUring.PollCount
import Loopy.IoUring.LinkChain
import Loopy.IoUring.Linking
import Loopy.IoUring.Entries
import Loopy.IoUring.Buffers
import Loopy.IoUring.BufferPools
import Loopy.IoUring.BufferPoolCalls
import Loopy.IoUring.BufferPoolRuns
import Loopy.Async.Wakeup
import Loopy.Async.Steps
import Loopy.Async.Backends
import Loopy.RateLimit.Concurrency
import Loopy.RateLimit.Waiters
import Loopy.RateLimit.FixedWindow
import Loopy.RateLimit.TokenBucket
import Loopy.RateLimit.SlidingWindow
import Loopy.RateLimit.LeakyBucket
import Loopy.RateLimit.Limiter
import Loopy.RateLimit.Peek
import Loopy.RateLimit.Retry
import Loopy.Flock.Lockfile
import Loopy.Work.Pool
import Loopy.Work.Delivery
import Loopy.Work.System
import Loopy.Work.Wakeups
import Loopy.Work.Rest
import Loopy.Work.Teardown
import Loopy.Channel.Basic
import Loopy.Channel.Spsc
import Loopy.Channel.Capacity
import Loopy.Channel.Length
import Loopy.Channel.Agreement
import Loopy.Channel.Select
import Loopy.Channel.Mutex
import Loopy.Channel.Blocking
import Loopy.Channel.BlockingRest
import Loopy.Channel.Closing
import Loopy.Channel.AsyncOps
import Loopy.ConcurrencyPool.Slots
import Loopy.ConcurrencyPool.Caps
import Loopy.ConcurrencyPool.Calls
import Loopy.PubSub.Basic
import Loopy.PubSub.Queue
import Loopy.PubSub.Registry
import Loopy.PubSub.Delivery
import Loopy.PubSub.Bound
import Loopy.Stream.Basic
import Loopy.Stream.Effects
import Loopy.Stream.Places
import Loopy.Stream.Queue
import Loopy.Stream.Completion
import Loopy.Stream.WireOrder
import Loopy.Stream.Watcher
import Loopy.Stream.Reading
import Loopy.Stream.Shutdown
import Loopy.Stream.ShutdownRuns
import Loopy.Stream.Connects
import Loopy.Stream.Sockets
import Loopy.Stream.SocketRuns
import Loopy.ConnPool.Basic
import Loopy.ConnPool.Ownership
import Loopy.ConnPool.Waiters
import Loopy.ConnPool.Active
import Loopy.ConnPool.Maintenance
import Loopy.ConnPool.Tally
import Loopy.ConnPool.Destroy
import Loopy.Cluster.Basic
import Loopy.Cluster.Events
import Loopy.Cluster.Failures
import Loopy.Cluster.Config
import Loopy.Cluster.ConfigThreads
import Loopy.Cluster.Iterate
import Loopy.Cluster.Process
import Loopy.Dns.Basic
import Loopy.Dns.Cancel
import Loopy.Dns.Delivery
import Loopy.Dns.Limit
import Loopy.Udp.Basic
import Loopy.Udp.Accounts
import Loopy.Udp.Completion
import Loopy.Watch.Basic
import Loopy.Watch.Delivery
import Loopy.Process.Basic
import Loopy.Process.Exits
import Loopy.Process.Stdio
import Loopy.Process.SpawnFails
import Loopy.Process.Wiring
import Loopy.FS.Basic
import Loopy.FS.BackEnds
import Loopy.FS.Copyfile
import Loopy.FS.Times
import Loopy.Pipe.Basic
import Loopy.Pipe.Writes
import Loopy.Pipe.Ends
import Loopy.Net.Sockets
import Loopy.Net.Loops
import Loopy.Net.Connecting
import Loopy.Net.Connect
import Loopy.Net.Listening
import Loopy.Net.Usable
import Loopy.Lib.Text
import Loopy.Net.Addr
import Loopy.Net.Malformed
import Loopy.Nice.Basic
import Loopy.Nice.Servers
import Loopy.Nice.Setup
import Loopy.Nice.Kinds
import Loopy.Idle.Basic
import Loopy.Idle.Bookkeeping
import Loopy.Idle.Calls
import Loopy.Idle.Passes
import Loopy.FSPoll.Basic
import Loopy.FSPoll.Passes
import Loopy.FSPoll.Changes
import Loopy.Timer.Basic
import Loopy.Timer.Lifecycle
import Loopy.Metrics.Basic
import Loopy.Metrics.Accounting
import Loopy.Mmap.Basic
import Loopy.Mmap.Ranges
import Loopy.TTY.Basic
import Loopy.TTY.Modes
import Loopy.TTY.Handles
