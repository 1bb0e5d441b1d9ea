import XianNet.Exclusion
import XianNet.Drain
import XianNet.Repair
import XianNet.Initialization
import XianNet.Accept
import XianNet.Read
import XianNet.Close
import XianNet.Overtaking
import XianNet.Identity
import XianNet.FailedAccept
import XianNet.Listening
import XianNet.Exit
import XianNet.Routing
import XianNet.Bridge
import XianNet.Batch
import XianNet.Replies
import XianNet.Locking
import XianNet.Returns
import XianNet.Rest
import XianNet.Actors
import XianNet.Logger
import XianNet.Answers
import XianNet.Startup
