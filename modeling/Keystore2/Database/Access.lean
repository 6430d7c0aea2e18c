import Keystore2.Database.Invariants

/-! Access control of the key database: what a successful `load_key_entry`, `unbind_key` or
`grant` established about its caller.  Under `check_key_permission`, a load or an unbind
reaches a key only as the app that owns it, through the SELinux context of its namespace, or
through a grant the caller received that includes the permission.  Under
`check_grant_permission`, a grant never includes `grant` and comes from a caller that owns the
key or holds `grant` on its namespace and every permission it grants.

These facts hold in the state in which the check ran.  When a load cannot take the key-id
lock at once it rolls back, waits, and reads the entry by its id in a second transaction
without checking again: the state it reads from may already have lost the grant. -/

namespace Keystore2.Database

open KeystoreDB Table

variable {Ctx : Type}

/-- What a key permission check establishes about the entry with the id `keyId`: it is live,
and the caller owns it as an app, reaches it through the SELinux context of its namespace, or
received a grant for it that includes the permission. -/
def AccessAllowed (db : KeystoreDB) (se : SELinux Ctx) (callerUid : UInt32) (callerCtx : Ctx)
    (perm : KeyPerm) (keyId : Int64) : Prop :=
  ∃ k ∈ db.keyentry, k.id = keyId ∧ k.state = .live ∧
    ((k.domain = some .app ∧ k.nspace = some (asI64 callerUid) ∧
        ∃ t, se.getcon = .ok t ∧ se.checkPermission callerCtx t perm = true) ∨
      (k.domain = some .selinux ∧ ∃ n t, k.nspace = some n ∧
        se.lookupKeystore2KeyContext n = .ok t ∧ se.checkPermission callerCtx t perm = true) ∨
      ∃ g ∈ db.grantTable, g.grantee = asI64 callerUid ∧ g.keyentryid = keyId ∧
        (⟨g.accessVector⟩ : KeyPermSet).includes perm = true)

/-- What a grant under `check_grant_permission` establishes: the granted set leaves out
`grant`, and the grantor owns the live key or holds `grant` on the SELinux context of its
namespace, and holds every granted permission there. -/
def GrantAllowed (db : KeystoreDB) (se : SELinux Ctx) (callerUid : UInt32) (callerCtx : Ctx)
    (accessVector : KeyPermSet) (k : KeyEntryRow) : Prop :=
  accessVector.includes .grant = false ∧ k ∈ db.keyentry ∧ k.state = .live ∧
    ∃ t, ((k.domain = some .app ∧ k.nspace = some (asI64 callerUid) ∧ se.getcon = .ok t) ∨
        (∃ n, k.domain = some .selinux ∧ k.nspace = some n ∧
          se.lookupKeystore2KeyContext n = .ok t)) ∧
      se.checkPermission callerCtx t .grant = true ∧
      ∀ p ∈ accessVector.toList, se.checkPermission callerCtx t p = true

section Check

variable {db : KeystoreDB} {se : SELinux Ctx} {callerUid : UInt32} {callerCtx : Ctx}
  {perm : KeyPerm} {key : KeyDescriptor} {keyType : KeyType} {info : KeyAccessInfo}

/-- An access vector that `load_access_tuple` returns is that of a grant the caller received
for the key. -/
theorem grant_of_vector (hinfo : db.loadAccessTuple key keyType callerUid = .ok info)
    {av : KeyPermSet} (hav : info.vector = some av) :
    ∃ g ∈ db.grantTable, g.grantee = asI64 callerUid ∧ g.keyentryid = info.keyId ∧
      av = ⟨g.accessVector⟩ := by
  obtain ⟨k, -, -, -, hres⟩ := loadAccessTuple_eq_ok hinfo
  rcases hres with ⟨-, g, hg, hgr, hgk, hv⟩ | ⟨-, -, hnone | ⟨g, hg, hgr, hgk, hv⟩⟩
  · exact ⟨g, hg, hgr, hgk, Option.some.inj (hav.symm.trans hv)⟩
  · rw [hnone] at hav
    cases hav
  · exact ⟨g, hg, hgr, hgk, Option.some.inj (hav.symm.trans hv)⟩

/-- The access tuple of an entry passes `check_key_permission` only when the access is
allowed. -/
theorem accessAllowed_of_check (h : Invariant db)
    (hinfo : db.loadAccessTuple key keyType callerUid = .ok info)
    (hcheck : checkKeyPermission se callerUid callerCtx perm info.descriptor info.vector =
      .ok ()) :
    AccessAllowed db se callerUid callerCtx perm info.keyId := by
  obtain ⟨k, hk, hid, hlive, hres⟩ := loadAccessTuple_eq_ok hinfo
  refine ⟨k, hk, hid, hlive, ?_⟩
  rcases checkKeyPermission_eq_ok hcheck with hav | ⟨happ, hns, t, ht, hc⟩ | ⟨hse, t, ht, hc⟩ |
    ⟨hblob, -⟩
  · -- Through the access vector of a grant.
    obtain ⟨av, hav, hinc⟩ := (Option.any_eq_true _ _).1 hav
    obtain ⟨g, hg, hgr, hgk, rfl⟩ := grant_of_vector hinfo hav
    exact Or.inr (Or.inr ⟨g, hg, hgr, hgk, hinc⟩)
  · rcases hres with ⟨hgrant, -⟩ | ⟨hd, hn, -⟩
    · rw [happ] at hgrant
      cases hgrant
    · rw [happ] at hd
      rw [← hns] at hn
      exact Or.inl ⟨hd, hn, t, ht, hc⟩
  · rcases hres with ⟨hgrant, -⟩ | ⟨hd, hn, -⟩
    · rw [hse] at hgrant
      cases hgrant
    · rw [hse] at hd
      exact Or.inr (Or.inl ⟨hd, _, t, hn, ht, hc⟩)
  · -- No live entry is in `Domain::BLOB`.
    rcases hres with ⟨hgrant, -⟩ | ⟨hd, -, -⟩
    · rw [hblob] at hgrant
      cases hgrant
    · rw [hblob] at hd
      rcases h.liveDomain k hk hlive with hd' | hd' <;> rw [hd] at hd' <;> cases hd'

/-- The key of a grant passes `check_grant_permission` only when the grant is allowed. -/
theorem grantAllowed_of_check {accessVector : KeyPermSet}
    (hinfo : db.loadAccessTuple key .client callerUid = .ok info)
    (hcheck : checkGrantPermission se callerUid callerCtx accessVector info.descriptor = .ok ()) :
    ∃ k, k.id = info.keyId ∧ GrantAllowed db se callerUid callerCtx accessVector k := by
  obtain ⟨k, hk, hid, hlive, hres⟩ := loadAccessTuple_eq_ok hinfo
  obtain ⟨hng, t, hdom, hg, hall⟩ := checkGrantPermission_eq_ok hcheck
  refine ⟨k, hid, hng, hk, hlive, t, ?_, hg, hall⟩
  rcases hres with ⟨hgrant, -⟩ | ⟨hd, hn, -⟩
  · -- A descriptor by grant is neither in `Domain::APP` nor in `Domain::SELINUX`.
    rcases hdom with ⟨happ, -⟩ | ⟨hse, -⟩
    · rw [happ] at hgrant
      cases hgrant
    · rw [hse] at hgrant
      cases hgrant
  · rcases hdom with ⟨happ, hns, ht⟩ | ⟨hse, ht⟩
    · rw [happ] at hd
      rw [← hns] at hn
      exact Or.inl ⟨hd, hn, ht⟩
    · rw [hse] at hd
      exact Or.inr ⟨_, hd, hn, ht⟩

end Check

/-- The guarantees of access control in one state, for one caller and one permission. -/
structure AccessGuarantees (db : KeystoreDB) (se : SELinux Ctx) (callerUid : UInt32)
    (callerCtx : Ctx) (perm : KeyPerm) : Prop where
  load : ∀ lockDeferred key keyType loadBits keyId entry,
    db.loadKeyEntry lockDeferred key keyType loadBits callerUid
      (checkKeyPermission se callerUid callerCtx perm) = .ok (keyId, entry) →
    AccessAllowed db se callerUid callerCtx perm keyId
  unbind : ∀ key keyType db', db.unbindKey key keyType callerUid
      (checkKeyPermission se callerUid callerCtx perm) = .ok db' →
    ∃ keyId, AccessAllowed db se callerUid callerCtx perm keyId ∧
      db' = (db.markUnreferenced keyId).2
  grant : ∀ key granteeUid accessVector newId kd db',
    db.grant key callerUid granteeUid accessVector
      (fun k av => checkGrantPermission se callerUid callerCtx av k) newId = .ok (kd, db') →
    ∃ k, GrantAllowed db se callerUid callerCtx accessVector k ∧
      ∃ g ∈ db'.grantTable, g.keyentryid = k.id ∧ g.grantee = asI64 granteeUid ∧
        g.accessVector = accessVector.val

/-- A SELinux policy that allows everything. -/
def allowAll : SELinux Unit := ⟨.ok (), fun _ => .ok (), fun _ _ _ => true⟩

/-- The alias "a" of the app with uid 10. -/
def appKeyDescriptor : KeyDescriptor := ⟨.app, 10, some "a", none⟩

/-- A new key under `appKeyDescriptor`: a key blob without metadata and nothing else. -/
def storeAppKey (newId : Int64) : Op :=
  .storeNewKey appKeyDescriptor .client [] ⟨[1], Metadata.new, none⟩ ⟨none, none⟩ Metadata.new
    keystoreUuid newId

/-- The app grants `use` on its key to the uid 20, under the grant id 100. -/
def grantUse : Op :=
  .grant appKeyDescriptor 10 20 ⟨KeyPerm.use.val⟩
    (fun k av => checkGrantPermission allowAll 10 () av k) 100

/-- The app revokes that grant. -/
def ungrantUse : Op :=
  .ungrant appKeyDescriptor 10 20 fun k => checkKeyPermission allowAll 10 () .grant k none

/-- Without grants, a caller reaches no key of another app. -/
theorem not_accessAllowed_of_foreign {db : KeystoreDB} {Ctx : Type} {se : SELinux Ctx}
    {callerUid : UInt32} {callerCtx : Ctx} {perm : KeyPerm} {keyId : Int64}
    (hg : db.grantTable = [])
    (hk : ∀ k ∈ db.keyentry, k.domain = some .app ∧ k.nspace ≠ some (asI64 callerUid)) :
    ¬AccessAllowed db se callerUid callerCtx perm keyId := by
  rintro ⟨k, hk', -, -, ⟨-, hn, -⟩ | ⟨hd, -⟩ | ⟨g, hg', -⟩⟩
  · exact (hk k hk').2 hn
  · rw [(hk k hk').1] at hd
    exact absurd hd (by decide)
  · rw [hg] at hg'
    cases hg'

end Keystore2.Database
