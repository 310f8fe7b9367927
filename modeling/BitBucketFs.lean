import BitBucketFs.Go.Errors
import BitBucketFs.Go.Filepath
import BitBucketFs.FileUtil
import BitBucketFs.Node
import BitBucketFs.File
import BitBucketFs.Filesystem
import BitBucketFs.Silent
import BitBucketFs.Namespace
import BitBucketFs.ErrorKinds
import BitBucketFs.Descriptor
import BitBucketFs.Deref
import BitBucketFs.Resolution
import BitBucketFs.Seek
import BitBucketFs.Commute
import BitBucketFs.Invariants
import BitBucketFs.Builds
import BitBucketFs.Faults
import BitBucketFs.Undo
