import FileManager.Service
import FileManager.History
import FileManager.Footprints
import FileManager.Deduplication
import FileManager.Routers.Playback
import FileManager.Staging
import FileManager.Statuses
import FileManager.Handling
import FileManager.Posters
import FileManager.Interleaving.Outline
import FileManager.Outlines.Visibility
import FileManager.Views
import FileManager.Authority
import FileManager.Ladder
import FileManager.Webhooks
import FileManager.Scanning
import FileManager.Settling
import FileManager.Sniffing
import FileManager.Compensation
import FileManager.Atomicity
import FileManager.Routers.Listing
import FileManager.Discipline
import FileManager.TaskIds
import FileManager.Isolation
import FileManager.Sessions
import FileManager.Outlines.Upload
import FileManager.Overlaps
import FileManager.Exposure
import FileManager.Responses
import FileManager.Interleaving.Logging
import FileManager.Deleting
import FileManager.Frames
import FileManager.Compression
import FileManager.Outlines.Compression
import FileManager.Outlines.Deletion
import FileManager.Rows
import FileManager.Crossing
import FileManager.Stocks
import FileManager.Backing
import FileManager.Privatizing
import FileManager.ImageVips
import FileManager.Widths
import FileManager.Interleaving.Reporting
import FileManager.Backends
import FileManager.Containment
import FileManager.Boundary
import FileManager.Interleaving.Answering
import FileManager.Routers.BulkUpload
import FileManager.Batches
import FileManager.Recognition
import FileManager.Revalidation
import FileManager.Pages
import FileManager.Delivery
import FileManager.Lookups
import FileManager.Rotation
import FileManager.Truncation
import FileManager.Dispositions
import FileManager.ImageCalls
import FileManager.ImageFailures
import FileManager.Interleaving.Inversion
import FileManager.ImageBudgets
import FileManager.Base64
import FileManager.ImgproxyPaths
import FileManager.Streaming
import FileManager.KeyGrammar
import FileManager.Shares
import FileManager.Immutability
import FileManager.Dict
import FileManager.InMemoryStore
import FileManager.StoreRefinement
import FileManager.TempFiles
import FileManager.Queueing
import FileManager.Callbacks
import FileManager.Confinement
import FileManager.Roles
import FileManager.Observations
import FileManager.Offsets
import FileManager.Walks
import FileManager.Tenancy
import FileManager.Interleaving.Execution
import FileManager.FileTrees
import FileManager.Media
import FileManager.ObjectMaps
import FileManager.Interleaving.Tallying
import FileManager.Failures
import FileManager.Interleaving.Words
import FileManager.Announcements
import FileManager.Interleaving.Once
import FileManager.Clients
import FileManager.Delimited
import FileManager.Tokens
import FileManager.Configuration
import FileManager.Transforms
import FileManager.Changes
import FileManager.Completion
