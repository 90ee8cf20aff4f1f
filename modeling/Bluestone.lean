import Bluestone.Staging.Restored
import Bluestone.Staging.Reported
import Bluestone.Gateway.Counted
import Bluestone.Staging.StagingFile
import Bluestone.Staging.Preserved
import Bluestone.Ha.Release
import Bluestone.Ha.Restarts
import Bluestone.Ha.Overlap
import Bluestone.Smb.ShareModes
import Bluestone.Smb.Create
import Bluestone.Vfs.Reserved
import Bluestone.Locks.Exact
import Bluestone.Locks.Bounded
import Bluestone.Posix.ReadRange
import Bluestone.Vfs.Entries
import Bluestone.Posix.DataCache
import Bluestone.Posix.Outlives
import Bluestone.Posix.Refresh
import Bluestone.Posix.UpdateAttributes
import Bluestone.Vfs.WindowsNames
import Bluestone.Vfs.Lookup
import Bluestone.Staging.Snapshots
import Bluestone.Vfs.DirTimes
import Bluestone.Staging.PendingDelete
import Bluestone.Vfs.HiddenDirectory
import Bluestone.Smb.Identity
import Bluestone.Smb.StreamHandles
import Bluestone.Cache.Data
import Bluestone.Smb.AuthGate
import Bluestone.Posix.ListingFence
import Bluestone.Staging.Multipart
import Bluestone.Gateway.Rekeyed
import Bluestone.Gateway.RenameCrash
import Bluestone.Gateway.RenameFails
import Bluestone.Gateway.RenameItself
import Bluestone.Staging.ObjectLocks
import Bluestone.Vfs.SameAnswers
