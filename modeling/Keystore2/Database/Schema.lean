import Keystore2.Permission
import Keystore2.KeyParameter
import Keystore2.Lib.Table

/-! The persistent key database of `database.rs`: its column types, the two metadata sets
that `impl_metadata!` generates, and the six tables `keyentry`, `blobentry`, `blobmetadata`,
`keyparameter`, `keymetadata` and `grant`.  A table is the list of its rows in the order of
their insertion.  A `blobentry` id is the SQLite rowid, a positive integer; the other ids
are the random `i64` that `insert_with_retry` chose.  A column that may hold NULL is an
`Option`. -/

namespace Keystore2.Database

open KeyParameter

inductive KeyType
  | client
  | super
  deriving DecidableEq, Repr

inductive KeyLifeCycle
  | existing
  | live
  | unreferenced
  deriving DecidableEq, Repr

inductive BlobState
  | current
  | superseded
  | orphaned
  deriving DecidableEq, Repr

/-- The field of `SubComponentType` is private to `database.rs`, which builds no value but
its three constants. -/
inductive SubComponentType
  | keyBlob
  | cert
  | certChain
  deriving DecidableEq, Repr

structure Uuid where
  val : Vector UInt8 16
  deriving DecidableEq, Repr

/-- The uuid of key entries that belong to no KeyMint instance. -/
def keystoreUuid : Uuid :=
  ⟨#v[0x41, 0xe3, 0xb9, 0xce, 0x27, 0x58, 0x4e, 0x91, 0xbc, 0xfd, 0xa5, 0x5d, 0x91, 0x85, 0xab,
    0x11]⟩

/-- Milliseconds since the epoch. -/
structure DateTime where
  val : Int64
  deriving DecidableEq, Repr

inductive EncryptedBy
  | password
  | keyId (id : Int64)
  deriving DecidableEq, Repr

inductive BlobMetaEntry
  | encryptedBy (value : EncryptedBy)
  | salt (value : List UInt8)
  | iv (value : List UInt8)
  | aeadTag (value : List UInt8)
  | kmUuid (value : Uuid)
  | publicKey (value : List UInt8)
  | maxBootLevel (value : Int32)
  deriving DecidableEq, Repr

inductive KeyMetaEntry
  | creationDate (value : DateTime)
  | attestationExpirationDate (value : DateTime)
  | attestationMacedPublicKey (value : List UInt8)
  | attestationRawPubKey (value : List UInt8)
  | sec1PublicKey (value : List UInt8)
  deriving DecidableEq, Repr

/-- The entries of a metadata set and the database tag of each, which `impl_metadata!`
numbers from zero in the order of the variants. -/
class MetaEntry (E : Type) where
  dbTag : E → Int64

instance : MetaEntry BlobMetaEntry where
  dbTag
    | .encryptedBy _ => 0
    | .salt _ => 1
    | .iv _ => 2
    | .aeadTag _ => 3
    | .kmUuid _ => 4
    | .publicKey _ => 5
    | .maxBootLevel _ => 6

instance : MetaEntry KeyMetaEntry where
  dbTag
    | .creationDate _ => 0
    | .attestationExpirationDate _ => 1
    | .attestationMacedPublicKey _ => 2
    | .attestationRawPubKey _ => 3
    | .sec1PublicKey _ => 4

open MetaEntry

/-- A metadata set, the `HashMap` from database tag to entry of `impl_metadata!`, as the
list of its entries; no two of them have the same tag. -/
structure Metadata (E : Type) [MetaEntry E] where
  data : List E
  nodup : (data.map dbTag).Nodup

abbrev BlobMetaData := Metadata BlobMetaEntry

abbrev KeyMetaData := Metadata KeyMetaEntry

/-- A row of a metadata table: the owning blob or key entry, the tag (that of the entry)
and the entry. -/
structure MetaRow (K E : Type) where
  owner : K
  data : E
  deriving DecidableEq, Repr

namespace Metadata

variable {E K : Type} [MetaEntry E]

theorem nodup_cons_filter {l : List E} (h : (l.map dbTag).Nodup) (entry : E) :
    ((entry :: l.filter fun e => dbTag e != dbTag entry).map dbTag).Nodup := by
  rw [List.map_cons, List.nodup_cons]
  constructor
  · simp
  · exact h.sublist (List.filter_sublist.map _)

def new : Metadata E := ⟨[], List.nodup_nil⟩

/-- `add`: the entry takes the place of the one with its tag. -/
def add (self : Metadata E) (entry : E) : Metadata E :=
  ⟨entry :: self.data.filter (fun e => dbTag e != dbTag entry),
    nodup_cons_filter self.nodup entry⟩

/-- The entry under a tag, as `HashMap::get` finds it. -/
def get (self : Metadata E) (tag : Int64) : Option E :=
  self.data.find? fun e => dbTag e == tag

/-- The accessor that `impl_metadata!` generates for a variant: the value of the entry under the
variant's tag, when that entry is of the variant. -/
def accessor {α : Type} (self : Metadata E) (tag : Int64) (value : E → Option α) : Option α :=
  (self.get tag).bind value

/-- `store_in_db`: one `INSERT OR REPLACE` for each entry, which first drops the row of the
owner with the entry's tag. -/
def storeInDb [DecidableEq K] (self : Metadata E) (owner : K) (table : List (MetaRow K E)) :
    List (MetaRow K E) :=
  self.data.foldl (fun t entry =>
    Table.delete (fun r => r.owner == owner && dbTag r.data == dbTag entry) t ++
      [⟨owner, entry⟩]) table

/-- `load_from_db`: the owner's rows, each inserted into an empty map. -/
def loadFromDb [DecidableEq K] (owner : K) (table : List (MetaRow K E)) : Metadata E :=
  (table.filter (·.owner == owner)).foldl (fun m r => m.add r.data) new

end Metadata

namespace BlobMetaData

/-! The accessors of `BlobMetaData` that the modelled functions read, each under the tag of its
variant. -/

def encryptedBy (self : BlobMetaData) : Option EncryptedBy :=
  self.accessor 0 fun | .encryptedBy v => some v | _ => none

def salt (self : BlobMetaData) : Option (List UInt8) :=
  self.accessor 1 fun | .salt v => some v | _ => none

def iv (self : BlobMetaData) : Option (List UInt8) :=
  self.accessor 2 fun | .iv v => some v | _ => none

def aeadTag (self : BlobMetaData) : Option (List UInt8) :=
  self.accessor 3 fun | .aeadTag v => some v | _ => none

def publicKey (self : BlobMetaData) : Option (List UInt8) :=
  self.accessor 5 fun | .publicKey v => some v | _ => none

def maxBootLevel (self : BlobMetaData) : Option Int32 :=
  self.accessor 6 fun | .maxBootLevel v => some v | _ => none

end BlobMetaData

structure KeyEntryRow where
  id : Int64
  keyType : KeyType
  domain : Option Domain
  nspace : Option Int64
  keyAlias : Option String
  state : KeyLifeCycle
  kmUuid : Uuid
  deriving DecidableEq, Repr

structure BlobEntryRow where
  id : Nat
  subcomponentType : SubComponentType
  keyentryid : Int64
  blob : List UInt8
  state : BlobState
  deriving DecidableEq, Repr

structure KeyParameterRow where
  keyentryid : Int64
  param : KeyParameter
  deriving DecidableEq, Repr

structure GrantRow where
  id : Int64
  grantee : Int64
  keyentryid : Int64
  accessVector : Int32
  deriving DecidableEq, Repr

/-- The persistent database.  The per-boot auth-token store is in `Enforcements`. -/
structure KeystoreDB where
  keyentry : List KeyEntryRow := []
  blobentry : List BlobEntryRow := []
  blobmetadata : List (MetaRow Nat BlobMetaEntry) := []
  keyparameter : List KeyParameterRow := []
  keymetadata : List (MetaRow Int64 KeyMetaEntry) := []
  grantTable : List GrantRow := []

structure KeyEntryLoadBits where
  val : UInt32
  deriving DecidableEq, Repr

namespace KeyEntryLoadBits

def none : KeyEntryLoadBits := ⟨0⟩
def km : KeyEntryLoadBits := ⟨1⟩
/-- `PUBLIC`; the word is a keyword of Lean. -/
def pub : KeyEntryLoadBits := ⟨2⟩
def both : KeyEntryLoadBits := ⟨3⟩

def loadPublic (self : KeyEntryLoadBits) : Bool := self.val &&& pub.val != 0
def loadKm (self : KeyEntryLoadBits) : Bool := self.val &&& km.val != 0

end KeyEntryLoadBits

/-- A key entry as `load_key_components` assembles it. -/
structure KeyEntry where
  id : Int64
  keyBlobInfo : Option (List UInt8 × BlobMetaData)
  cert : Option (List UInt8)
  certChain : Option (List UInt8)
  kmUuid : Uuid
  parameters : List KeyParameter
  metadata : KeyMetaData
  pureCert : Bool

structure KeyAccessInfo where
  keyId : Int64
  descriptor : KeyDescriptor
  vector : Option KeyPermSet
  deriving DecidableEq, Repr

structure SupersededBlob where
  blobId : Nat
  blob : List UInt8
  metadata : BlobMetaData

structure BlobInfo where
  blob : List UInt8
  metadata : BlobMetaData
  supersededBlob : Option (List UInt8 × BlobMetaData)

structure CertificateInfo where
  cert : Option (List UInt8)
  certChain : Option (List UInt8)
  deriving DecidableEq, Repr

end Keystore2.Database
