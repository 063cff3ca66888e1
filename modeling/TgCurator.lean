import TgCurator.Admin.Bootstrap
import TgCurator.Analysis.Aggregate
import TgCurator.Analysis.Cache
import TgCurator.Analysis.Checks
import TgCurator.Analysis.Failures
import TgCurator.Analysis.Gate
import TgCurator.Analysis.Leasing
import TgCurator.Analysis.NegativeGate
import TgCurator.Analysis.Ordering
import TgCurator.Analysis.Provenance
import TgCurator.Analysis.Rendering
import TgCurator.Analysis.RunIf
import TgCurator.Configuration.Versions
import TgCurator.Inference.Visual
import TgCurator.Ingestion.Buffered
import TgCurator.Ingestion.Cursor
import TgCurator.Media.AssetStore
import TgCurator.Media.Intact
import TgCurator.Messages.Batch
import TgCurator.Messages.Caption
import TgCurator.Messages.Fingerprint
import TgCurator.Messages.Lifecycle
import TgCurator.Messages.Snapshot
import TgCurator.Newest
import TgCurator.Observability.Formatter
import TgCurator.Observability.Sanitizer
import TgCurator.Output.Agreement
import TgCurator.Processing.History
import TgCurator.Processing.Queues
import TgCurator.Processing.Scheduler
import TgCurator.Review.History
import TgCurator.Review.LastLabel
import TgCurator.Review.Namespaces
import TgCurator.Routing.Comparisons
import TgCurator.Routing.Faults
import TgCurator.Routing.Keys
import TgCurator.Secrets.Vault
