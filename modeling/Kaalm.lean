import Kaalm.Gateway.Overshoot
import Kaalm.Controller.Retention
import Kaalm.Controller.Migrated
import Kaalm.Controller.Progress
import Kaalm.Controller.TaskLife
import Kaalm.Gateway.Forwarded
import Kaalm.Gateway.StreamRelay
import Kaalm.Runtime.Messages
import Kaalm.Runtime.Window
import Kaalm.Gateway.Counters
import Kaalm.Translate.Lossless
import Kaalm.Gateway.McpSession
import Kaalm.Gateway.SpecEdit
import Kaalm.Gateway.Poll
import Kaalm.Controller.PendingCap
import Kaalm.Gateway.Wire
import Kaalm.Controller.BudgetArchive
import Kaalm.Gateway.Unpublished
import Kaalm.Gateway.PeerView
import Kaalm.Controller.Converge
import Kaalm.Controller.Activity
import Kaalm.Controller.ToolGrants
import Kaalm.Controller.Refund
import Kaalm.Gateway.ModelPrivacy
import Kaalm.Gateway.Discord
import Kaalm.Controller.ChannelPaths
