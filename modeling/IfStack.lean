import IfStack.Config.Load
import IfStack.Link.Validity
import IfStack.Mib.Bulk
import IfStack.Mib.Lookup
import IfStack.Monitor.Changes
import IfStack.Monitor.Deadline
import IfStack.Monitor.EventLadder
import IfStack.Monitor.FailureFloor
import IfStack.Monitor.Freshness
import IfStack.Monitor.Publication
import IfStack.Monitor.RateLimit
import IfStack.Netlink.Batch
import IfStack.Netlink.Complete
import IfStack.Netlink.Framing
import IfStack.Netlink.Link
import IfStack.Netlink.Loss
import IfStack.Netlink.Poll
import IfStack.Netlink.Sequence
import IfStack.Netlink.SocketIo
import IfStack.Netlink.Timeout
import IfStack.Session.Acceptance
import IfStack.Session.Budget
import IfStack.Session.Frames
import IfStack.Session.Handshake
import IfStack.Session.OneWay
import IfStack.Session.Reassembly
import IfStack.Subagent.Kernel
import IfStack.Subagent.Pace
import IfStack.Subagent.Reconnect
import IfStack.Subagent.Sessions
import IfStack.Subagent.Survival
import IfStack.Subagent.Threads
import IfStack.Subagent.Verdicts
import IfStack.Subagent.Walks
