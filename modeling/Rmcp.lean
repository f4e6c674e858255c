import Rmcp.Session.Completion
import Rmcp.Service.Correlation
import Rmcp.Service.Responses
import Rmcp.Service.Isolation
import Rmcp.Service.Overtaking
import Rmcp.Service.Batches
import Rmcp.Service.Lines
import Rmcp.Service.Awaiting
import Rmcp.Service.Listing
import Rmcp.Transport.LiveSession
import Rmcp.Transport.AuthTransparency
import Rmcp.Transport.Forwarding
import Rmcp.Transport.Reconnect
import Rmcp.Transport.Backoff
import Rmcp.Transport.Registration
import Rmcp.Transport.SseSession
import Rmcp.Handler.ToolBox
import Rmcp.Macros.ToolFn
import Rmcp.Auth.Atomicity
import Rmcp.Auth.Renewal
import Rmcp.Auth.Sharing
import Rmcp.Session.Cancellation
import Rmcp.Session.Replay
import Rmcp.Session.Stall
import Rmcp.Session.FailedResume
import Rmcp.Model.WireIds
import Rmcp.Model.Variants
import Rmcp.Model.Metadata
import Rmcp.Model.MimeType
import Rmcp.Model.PromptContent
import Rmcp.Service.Settling
import Rmcp.Service.Notifications
import Rmcp.Service.Piped
import Rmcp.Service.Cancelling
import Rmcp.Transport.HttpStreams
