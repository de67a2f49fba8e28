import LetsFlutSsh.Recorder.Seek
import LetsFlutSsh.Recorder.Queue
import LetsFlutSsh.Archive.Envelope
import LetsFlutSsh.Sync.Slices
import LetsFlutSsh.Sync.Progress
import LetsFlutSsh.Archive.ImportOrder
import LetsFlutSsh.Archive.RoundTrip
import LetsFlutSsh.Qr.Closure
import LetsFlutSsh.Archive.FolderTransfer
import LetsFlutSsh.Archive.Idempotence
import LetsFlutSsh.Archive.ReplaceLinks
import LetsFlutSsh.Archive.KeyRefs
import LetsFlutSsh.Recorder.Rewrap
import LetsFlutSsh.Security.MasterPassword
import LetsFlutSsh.Transfer.Worker
import LetsFlutSsh.Security.UnlockLock
import LetsFlutSsh.Security.UnlockReentry
import LetsFlutSsh.Security.UnlockThrottle
import LetsFlutSsh.Security.Wipe
import LetsFlutSsh.Hosts.KnownHosts
import LetsFlutSsh.SshAgent.Permission
import LetsFlutSsh.SshAgent.Stop
import LetsFlutSsh.WebDav.Send
import LetsFlutSsh.Connection.ConnectTimeout
import LetsFlutSsh.Connection.TransientSecrets
import LetsFlutSsh.Connection.LastState
import LetsFlutSsh.Workspace.Coherent
import LetsFlutSsh.Archive.Timestamp
import LetsFlutSsh.Archive.KnownHostsText
import LetsFlutSsh.Db.FolderLookup
import LetsFlutSsh.Recorder.Chunking
import LetsFlutSsh.Config.Codec
import LetsFlutSsh.Config.Persistence
import LetsFlutSsh.Recorder.StorageCap
import LetsFlutSsh.Recorder.Rotate
import LetsFlutSsh.Recorder.IndexSearch
import LetsFlutSsh.Archive.CountsExact
import LetsFlutSsh.Security.Backoff
import LetsFlutSsh.Sftp.FlatWalk
import LetsFlutSsh.Update.Orchestrator
import LetsFlutSsh.Security.AutoLock
import LetsFlutSsh.Deeplink.LinkGrammar
import LetsFlutSsh.Hosts.SshConfigContext
import LetsFlutSsh.SshAgent.Agreement
import LetsFlutSsh.SshAgent.Promotion
import LetsFlutSsh.S3.SignedAsSent
import LetsFlutSsh.Pkcs11.Uri
import LetsFlutSsh.Terminal.Paste
import LetsFlutSsh.Forward.Socks5
import LetsFlutSsh.Sessions.TreeSpec
import LetsFlutSsh.SshAgent.SocketSpec
import LetsFlutSsh.SshAgent.SignedHash
import LetsFlutSsh.WebDav.Walk
import LetsFlutSsh.Sessions.Registry
import LetsFlutSsh.Sessions.History
import LetsFlutSsh.Sessions.ProxyCycle
import LetsFlutSsh.Sessions.ConnectTarget
import LetsFlutSsh.Migration.Versions
import LetsFlutSsh.WebDav.Challenge
import LetsFlutSsh.Terminal.SnippetTemplate
import LetsFlutSsh.S3.ListParse
import LetsFlutSsh.Workspace.ActiveTab
