import PgRaggraph.Core.CanonicalIds
import PgRaggraph.Core.Ask
import PgRaggraph.Core.Senses
import PgRaggraph.Core.Framing
import PgRaggraph.Core.Credentials
import PgRaggraph.Core.Extractions
import PgRaggraph.Core.RetryRuns
import PgRaggraph.Extension.Admin
import PgRaggraph.Extension.Ingest
import PgRaggraph.Extension.IngestExtracted
import PgRaggraph.Extension.NamespaceDrop
import PgRaggraph.Extension.Worker
import PgRaggraph.Retrieval.Filter
import PgRaggraph.Retrieval.Fusion
import PgRaggraph.Retrieval.Reachable
import PgRaggraph.Retrieval.Truncation
import PgRaggraph.Sidecar.AskSecrecy
import PgRaggraph.Sidecar.Bootstrap
import PgRaggraph.Sidecar.ClientShim
import PgRaggraph.Sidecar.Dimensions
import PgRaggraph.Sidecar.Duplicates
import PgRaggraph.Sidecar.ProviderChoice
import PgRaggraph.Sidecar.Redaction
import PgRaggraph.Sidecar.Transients
import PgRaggraph.Store.NamespaceIsolation
import PgRaggraph.Store.Resolution
import PgRaggraph.Store.SharedEntities
import PgRaggraph.Store.VectorLiteral
import PgRaggraph.Sidecar.Searchable
import PgRaggraph.Sidecar.WorkerPool
import PgRaggraph.Sidecar.Provenance
import PgRaggraph.Sidecar.ReaperTask
import PgRaggraph.Queue.Overtaking
import PgRaggraph.Extension.Administration
import PgRaggraph.Extension.FixtureReload
import PgRaggraph.Extension.Status
