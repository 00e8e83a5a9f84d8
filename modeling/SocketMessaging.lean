import SocketMessaging.Server.Descriptors
import SocketMessaging.Server.Frames
import SocketMessaging.Server.Recipients
import SocketMessaging.Server.Relay
import SocketMessaging.Server.Logins
import SocketMessaging.Server.Sender
import SocketMessaging.Server.Conservation
import SocketMessaging.Server.BanRaces
import SocketMessaging.Server.Ownership
import SocketMessaging.Server.ClientCap
import SocketMessaging.Client.Agreement
import SocketMessaging.Server.Banlist
import SocketMessaging.Server.Announcements
import SocketMessaging.Server.Impersonation
import SocketMessaging.Client.ClientUI
import SocketMessaging.Server.Settings
import SocketMessaging.Server.Heartbeat
import SocketMessaging.Server.Expiry
import SocketMessaging.Server.Teardown
import SocketMessaging.Utils.Split
import SocketMessaging.Utils.ConfigHistory
import SocketMessaging.Utils.ThreadPool
import SocketMessaging.Client.Timestamps
import SocketMessaging.Client.Replies
import SocketMessaging.Server.LogTail
import SocketMessaging.Client.Events
import SocketMessaging.Client.Bounds
import SocketMessaging.Server.MailRuns
import SocketMessaging.Client.Mailbox
import SocketMessaging.Server.Silence
import SocketMessaging.Utils.PoolLiveness
import SocketMessaging.Server.Dialogue
import SocketMessaging.Client.Display
import SocketMessaging.Client.Lifecycle
import SocketMessaging.Client.Console
import SocketMessaging.Server.DispatcherLiveness
import SocketMessaging.Server.Mutexes
