import Bcirc.Autoload
import Bcirc.ChanEventForm
import Bcirc.ChannelHandler
import Bcirc.ChannelMap
import Bcirc.Connect
import Bcirc.Conversations
import Bcirc.DispatchRounds
import Bcirc.EscapeRuns
import Bcirc.FailedLoad
import Bcirc.HookChange
import Bcirc.JoinPart
import Bcirc.LogLines
import Bcirc.LogRecursion
import Bcirc.LostConnection
import Bcirc.MessageTimes
import Bcirc.MsgQueue
import Bcirc.NamReplies
import Bcirc.NameOwners
import Bcirc.NickProtocol
import Bcirc.NumericSearches
import Bcirc.NumericValue
import Bcirc.Ping
import Bcirc.PluginsKept
import Bcirc.PrivmsgDelivery
import Bcirc.PrivmsgForm
import Bcirc.PythonDispatch
import Bcirc.QueueLocks
import Bcirc.QuitEvent
import Bcirc.Reconnect
import Bcirc.RecvBuffers
import Bcirc.RemoveUser
import Bcirc.Restart
import Bcirc.ServerPool
import Bcirc.SharedStrings
import Bcirc.SourceLengths
import Bcirc.TitleCalls
import Bcirc.TopicReply
import Bcirc.TrailingForm
import Bcirc.WeatherGap
