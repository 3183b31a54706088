import OmarchyWhatsapp.Database.ArrivalOrder
import OmarchyWhatsapp.Database.DeletionTheorems
import OmarchyWhatsapp.Database.RedeliveryTheorems
import OmarchyWhatsapp.Database.UnreadTheorems
import OmarchyWhatsapp.Inbound.IdentityTheorems
import OmarchyWhatsapp.Database.PreviewMigration
import OmarchyWhatsapp.Database.ReactionTheorems
import OmarchyWhatsapp.Database.ReceiptTheorems
import OmarchyWhatsapp.Database.PollTheorems
import OmarchyWhatsapp.Database.ChatSettingTheorems
import OmarchyWhatsapp.Database.MigrateReceiptTheorems
import OmarchyWhatsapp.Database.MigrateReactionTheorems
import OmarchyWhatsapp.Database.ReadConvergence
import OmarchyWhatsapp.Database.PollCardTheorems
import OmarchyWhatsapp.Database.ContactNameTheorems
import OmarchyWhatsapp.Outbox.DeliveryOrder
import OmarchyWhatsapp.Outbox.VoiceOutboxTheorems
import OmarchyWhatsapp.Shell.DraftTheorems
import OmarchyWhatsapp.Session.ChatStateResyncTheorems
import OmarchyWhatsapp.Session.Publications
import OmarchyWhatsapp.Session.PresenceConvergence
import OmarchyWhatsapp.Session.Invalidations
import OmarchyWhatsapp.Session.Avatars
import OmarchyWhatsapp.Session.CommandGates
import OmarchyWhatsapp.Shell.UnreadBadge
import OmarchyWhatsapp.Shell.ChatListTheorems
import OmarchyWhatsapp.Shell.MediaDownloadTheorems
import OmarchyWhatsapp.Shell.DaemonRestart
import OmarchyWhatsapp.Inbound.ReactionOrder
import OmarchyWhatsapp.Outbox.MarkRead
import OmarchyWhatsapp.Outbox.ReadStarvation
import OmarchyWhatsapp.Inbound.DurableInbox
import OmarchyWhatsapp.Inbound.DrainStarvation
import OmarchyWhatsapp.Inbound.GroupSubjects
import OmarchyWhatsapp.Inbound.PollVotes
import OmarchyWhatsapp.Media.DocumentPaths
import OmarchyWhatsapp.Media.CacheRemoval
import OmarchyWhatsapp.Media.CachePruning
import OmarchyWhatsapp.Media.Staging
import OmarchyWhatsapp.Media.AvatarFiles
import OmarchyWhatsapp.Session.Logout
import OmarchyWhatsapp.Ctl.LauncherMenuTheorems
import OmarchyWhatsapp.Ctl.MenuActions
import OmarchyWhatsapp.Shell.OwedRefresh
import OmarchyWhatsapp.Shell.LinkSchemes
import OmarchyWhatsapp.Shell.ComposerTheorems
import OmarchyWhatsapp.Inbound.HistoryIdentity
import OmarchyWhatsapp.Database.AliasCompleteness
import OmarchyWhatsapp.Database.ListedUnread
import OmarchyWhatsapp.Outbox.VoiceRetention
import OmarchyWhatsapp.Outbox.OggOpusTheorems
import OmarchyWhatsapp.Outbox.VoiceEviction
import OmarchyWhatsapp.Outbox.VoiceIdentity
import OmarchyWhatsapp.Outbox.RecordingNames
import OmarchyWhatsapp.Database.SchemaLadderTheorems
import OmarchyWhatsapp.Database.HistoryBatch
import OmarchyWhatsapp.Database.ReferenceIntegrity
import OmarchyWhatsapp.Database.SettingCommutation
import OmarchyWhatsapp.Shell.Requests
import OmarchyWhatsapp.Session.CommandProgress
import OmarchyWhatsapp.Session.ConnectionTheorems
import OmarchyWhatsapp.Database.MessageViewTheorems
import OmarchyWhatsapp.Media.TemporaryFileTheorems
