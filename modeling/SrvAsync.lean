import SrvAsync.Pairing
import SrvAsync.Abandon
import SrvAsync.Isolation
import SrvAsync.Kernel
import SrvAsync.Receive.Decode
import SrvAsync.Receive.Expect
import SrvAsync.Receive.Sound
import SrvAsync.Receive.Split
import SrvAsync.Wakeup
import SrvAsync.Base.Pieces
import SrvAsync.Deadline
import SrvAsync.Faults
import SrvAsync.Http.Framing
import SrvAsync.Http.Head
import SrvAsync.Http.Status
import SrvAsync.Receive.Cursors
import SrvAsync.Receive.Oversize
import SrvAsync.Receive.Typed
import SrvAsync.Http.KeepAlive
import SrvAsync.Http.Padding
import SrvAsync.Http.RoundTrip
import SrvAsync.Pass
import SrvAsync.Config.Reject
import SrvAsync.Http.Contains
import SrvAsync.Config.Numeral
import SrvAsync.Config.Startup
import SrvAsync.Receive.Leftover
import SrvAsync.Service
import SrvAsync.Fairness
import SrvAsync.Slices
import SrvAsync.Linked.Progress
import SrvAsync.Master.LogFile
import SrvAsync.Receive.Entire
import SrvAsync.Http.DateHdr
import SrvAsync.Threaded.Sockets
import SrvAsync.Threaded.Count
