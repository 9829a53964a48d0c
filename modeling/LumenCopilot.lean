import LumenCopilot.Proof.Auth.Rotation
import LumenCopilot.Proof.Chat.Assembly
import LumenCopilot.Proof.Chat.Salvage
import LumenCopilot.Proof.Context.Assembly
import LumenCopilot.Proof.Context.Idempotence
import LumenCopilot.Proof.Context.Wire
import LumenCopilot.Proof.Drive.Ancestry
import LumenCopilot.Proof.Guard.Hidden
import LumenCopilot.Proof.Guard.Ordinary
import LumenCopilot.Proof.Handles.Evidence
import LumenCopilot.Proof.Handles.Markdown
import LumenCopilot.Proof.Ingestion.Embeddings
import LumenCopilot.Proof.Ingestion.Extraction
import LumenCopilot.Proof.Ingestion.Windows
import LumenCopilot.Proof.Media.Names
import LumenCopilot.Proof.Media.Stitched
import LumenCopilot.Proof.Memory.Redaction
import LumenCopilot.Proof.Memory.Snippets
import LumenCopilot.Proof.Memory.Tail
import LumenCopilot.Proof.Realtime.StandIn
import LumenCopilot.Proof.Retrieval.Corpus
import LumenCopilot.Proof.Retrieval.Fusion
import LumenCopilot.Proof.Runner.Archive
import LumenCopilot.Proof.Runner.Limits
import LumenCopilot.Proof.Runner.Results
import LumenCopilot.Proof.Runs.Claims
import LumenCopilot.Proof.Runs.Deliveries
import LumenCopilot.Proof.Runs.Inbox
import LumenCopilot.Proof.Runs.Resumption
import LumenCopilot.Proof.Sandbox.Admission
import LumenCopilot.Proof.Sandbox.Daily
import LumenCopilot.Proof.Sandbox.Leases
import LumenCopilot.Proof.Sandbox.Settlement
import LumenCopilot.Proof.Schedules.Daily
import LumenCopilot.Proof.Schedules.Gates
import LumenCopilot.Proof.Sources.Safety
import LumenCopilot.Proof.Storage.Keys
import LumenCopilot.Proof.Tools.Filling
import LumenCopilot.Proof.Tools.Ordered
import LumenCopilot.Proof.Tools.Sharing
import LumenCopilot.Proof.Uploads.Interleavings
import LumenCopilot.Proof.Web.Sync
