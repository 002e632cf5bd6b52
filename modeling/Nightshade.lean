import Nightshade.Schema.Gate
import Nightshade.Schema.Reload
import Nightshade.Schema.Emptied
import Nightshade.Schema.SetLine
import Nightshade.Schema.Consistent
import Nightshade.Configd.FailedRequests
import Nightshade.Configd.CommittedAnswer
import Nightshade.Configd.SavedTrials
import Nightshade.Configd.Restart
import Nightshade.Configd.Truth
import Nightshade.Configd.Departures
import Nightshade.Configd.Isolation
import Nightshade.Cli.Masking
import Nightshade.Cli.Comparison
import Nightshade.Schema.Undone
import Nightshade.Render.HostsFile
import Nightshade.Render.Sync
import Nightshade.Render.Stacking
import Nightshade.Render.ReadBack
import Nightshade.Render.Rebuilt
import Nightshade.Render.Accounts
import Nightshade.Configd.Unseen
import Nightshade.Configd.SavedBoot
import Nightshade.Ifprobe.Counters
import Nightshade.Installer.FirstBoot
import Nightshade.Cli.Prompt
import Nightshade.Ifprobe.Transitions
import Nightshade.Ifprobe.Rates
import Nightshade.Ifprobe.Netlink
import Nightshade.Ifstate.CounterTables
import Nightshade.Ifstate.Query
import Nightshade.Proto.Frame
import Nightshade.Schema.AnyOrder
import Nightshade.Schema.Edits
import Nightshade.Ifstate.Wrap
import Nightshade.Installer.Mounts
import Nightshade.Installer.Pam
import Nightshade.Installer.Teardown
import Nightshade.Cli.Complete
import Nightshade.Configd.WayIn
import Nightshade.Configd.History
import Nightshade.Schema.Subtree
import Nightshade.Configd.Served
import Nightshade.Cli.Runs
import Nightshade.Cli.Batch
import Nightshade.Configd.Conversations
