import TgCli.Core.ArgParseUsage
import TgCli.Core.TlReaderCursor
import TgCli.Core.RsaFingerprint
import TgCli.Core.Wcwidth
import TgCli.Core.TlSkip.PhotoSizes
import TgCli.Core.TlSkip.MediaDepth
import TgCli.Core.TlSkip.Termination
import TgCli.Core.TlSkip.Nesting
import TgCli.App.SessionStore.FutureVersion
import TgCli.App.SessionStore.Crash
import TgCli.App.SessionStore.Concurrent
import TgCli.App.AuthFlowFallback
import TgCli.App.SeqNoHistory
import TgCli.Infrastructure.TransportSync
import TgCli.Infrastructure.ApiCallBuffer
import TgCli.Infrastructure.ApiCallTermination
import TgCli.Infrastructure.Auth2faServer
import TgCli.Infrastructure.MediaIndexRuns
import TgCli.Infrastructure.UpdatesStateStore
import TgCli.Infrastructure.MtprotoAuthPq
import TgCli.Infrastructure.MtprotoAuthAgreement
import TgCli.App.ConfigWizard
import TgCli.App.BootstrapIni
import TgCli.Domain.Contacts
import TgCli.Domain.DialogsJoin
import TgCli.Domain.MessageAgreement
import TgCli.Domain.HistoryElements
import TgCli.Domain.Upload
import TgCli.Domain.Media
import TgCli.Domain.WriteCommands
import TgCli.Main.Download
import TgCli.Main.JsonOutput
import TgCli.Main.TtySanitize
import TgCli.Tui.TextSafe
import TgCli.Main.WatchPeers
