import Keystore2.Lib.SortDedup
import Keystore2.Lib.Scan
import Keystore2.Error
import Keystore2.KeyParameter
import Keystore2.BootLevelKeys
import Keystore2.ListKeyEntries
import Keystore2.Enforcements
import Keystore2.Lib.Except
import Keystore2.Enforcements.AuthorizeCreate
import Keystore2.Permission
import Keystore2.Database.Schema
import Keystore2.Database.KeystoreDB
import Keystore2.Database.Run
import Keystore2.Database.Effects
import Keystore2.Database.Invariants
import Keystore2.Database.Access
import Keystore2.Database.Blobs
import Keystore2.Database.Gc
import Keystore2.Database.GcSafety
import Keystore2.SuperKey
import Keystore2.SuperKey.Locking
import Keystore2.AsyncTask
import Keystore2.AsyncTask.Serial
import Keystore2.Database.Usage
import Keystore2.SuperKey.BootLevel
import Keystore2.LegacyBlob
import Keystore2.Lib.LittleEndian
import Keystore2.SwKeyblob
import Keystore2.SwKeyblob.KeyBlob
import Keystore2.LegacyKeystore
import Keystore2.Operation
import Keystore2.Enforcements.AuthToken
import Keystore2.Enforcements.SuperEncryption
import Keystore2.SuperKey.Encryption
import Keystore2.LegacyImporter
import Keystore2.Database.Versioning
import Keystore2.KmCompat
import Keystore2.OperationDb
import Keystore2.Identity.CredentialData
import Keystore2.Lib.CInt
import Keystore2.Identity.AuthKeys
import Keystore2.Identity.Credential
import Keystore2.Identity.Lifecycle
import Keystore2.Apc
import Keystore2.Crypto
import Keystore2.LegacyBlob.Format
import Keystore2.Watchdog
import Keystore2.LegacyBlob.Characteristics
import Keystore2.Lib.CountMap
import Keystore2.MetricsStore
import Keystore2.LegacyBlob.Loader
