import FabconnectEvents.StreamInfo
import FabconnectEvents.Settings
import FabconnectEvents.Webhook
import FabconnectEvents.Manager
import FabconnectEvents.Registry
import FabconnectEvents.Failures
import FabconnectEvents.Config
import FabconnectEvents.Links
import FabconnectEvents.Pipeline.State
import FabconnectEvents.Pipeline.Step
import FabconnectEvents.Pipeline.InFlight
import FabconnectEvents.Pipeline.WaitGroup
import FabconnectEvents.Pipeline.Deletion
import FabconnectEvents.Pipeline.Checkpoint
import FabconnectEvents.Pipeline.Progress
import FabconnectEvents.Pipeline.Control
import FabconnectEvents.Pipeline.Generation
import FabconnectEvents.Pipeline.Batching
import FabconnectEvents.Pipeline.Delivery
import FabconnectEvents.Pipeline.Handle
