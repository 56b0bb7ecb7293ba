import Ngs3fs.Cache.Sound
import Ngs3fs.Cache.Export
import Ngs3fs.Cache.Retire
import Ngs3fs.Cache.Reserve
import Ngs3fs.Persist.Reset
import Ngs3fs.Persist.Immutable
import Ngs3fs.Recovery.Idempotent
import Ngs3fs.Recovery.Commit
import Ngs3fs.Upload.WriteThrough
import Ngs3fs.Rename.Overwrite
import Ngs3fs.Prefetch.Budget
import Ngs3fs.Open.Sound
import Ngs3fs.Paths.Map
import Ngs3fs.Paths.Agree
import Ngs3fs.Http.Send
import Ngs3fs.Recovery.Exact
import Ngs3fs.Parts.Conserve
import Ngs3fs.Cache.Inspect
import Ngs3fs.Parts.Admission
import Ngs3fs.S3.Canonical
import Ngs3fs.Paths.Promote
import Ngs3fs.S3.Attempts
import Ngs3fs.Open.Requests
import Ngs3fs.Directory.Read
import Ngs3fs.Open.Identity
import Ngs3fs.Cache.Manifest
import Ngs3fs.Directory.Clock
import Ngs3fs.Cache.Packed
import Ngs3fs.Cache.Reopen
import Ngs3fs.S3.Dates
