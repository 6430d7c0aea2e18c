import Keystore2.Database.Run
import Keystore2.Lib.Except

/-! What each operation of the key database does, read off its definition once.  For a
method that may fail, the inversion lemma says what a successful run checked and which
statements it ran; the helpers it calls are taken apart by their own lemmas, so that no
later proof unfolds a method.  The pure statements come with lemmas on the tables they
touch. -/

namespace Keystore2.Database

open KeyParameter Table

namespace KeystoreDB

variable {db db' : KeystoreDB}

section Helpers

theorem withRowsExtractOne_eq_ok {ρ α : Type} {rows : List ρ}
    {rowExtractor : Option ρ → Except Error α} {a : α}
    (h : withRowsExtractOne rows rowExtractor = .ok a) :
    (rows = [] ∧ rowExtractor none = .ok a) ∨ ∃ r, rows = [r] ∧ rowExtractor (some r) = .ok a := by
  unfold withRowsExtractOne at h
  split at h
  · exact Or.inl ⟨rfl, h⟩
  · exact Or.inr ⟨_, rfl, h⟩
  · exact absurd h Except.throw_ne_ok

theorem createKeyEntryInternal_eq_ok {domain : Domain} {nspace : Int64} {keyType : KeyType}
    {kmUuid : Uuid} {newId keyId : Int64}
    (h : db.createKeyEntryInternal domain nspace keyType kmUuid newId = .ok (keyId, db')) :
    (domain = .app ∨ domain = .selinux) ∧ keyId = newId ∧
      db' = { db with
        keyentry := db.keyentry ++
          [⟨newId, keyType, some domain, some nspace, none, .existing, kmUuid⟩] } := by
  unfold createKeyEntryInternal at h
  split_ifs at h with hd
  simp only [pure, Except.pure, Except.ok.injEq, Prod.mk.injEq] at h
  exact ⟨hd, h.1.symm, h.2.symm⟩

/-- `set_blob_internal` writes only the blob tables. -/
theorem setBlobInternal_frame {keyId : Int64} {scType : SubComponentType}
    {blob : Option (List UInt8)} {blobMetadata : Option BlobMetaData}
    (h : db.setBlobInternal keyId scType blob blobMetadata = .ok db') :
    db'.keyentry = db.keyentry ∧ db'.grantTable = db.grantTable := by
  unfold setBlobInternal at h
  split at h
  · split at h <;>
    · simp only [pure, Except.pure, Except.ok.injEq] at h
      subst h
      exact ⟨rfl, rfl⟩
  · simp only [pure, Except.pure, Except.ok.injEq] at h
    subst h
    exact ⟨rfl, rfl⟩
  · simp only [pure, Except.pure, Except.ok.injEq] at h
    subst h
    exact ⟨rfl, rfl⟩
  · exact absurd h Except.throw_ne_ok

theorem rebindAlias_eq_ok {newid : Int64} {keyAlias : String} {domain : Domain}
    {nspace : Int64} {keyType : KeyType} {b : Bool}
    (h : db.rebindAlias newid keyAlias domain nspace keyType = .ok (b, db')) :
    let cleared := update (fun k => decide (k.location = (keyType, some domain, some nspace,
        some keyAlias)))
      (fun k => { k with keyAlias := none, domain := none, nspace := none, state := .unreferenced })
      db.keyentry
    let fresh := fun (k : KeyEntryRow) => k.id == newid && k.domain == some domain &&
      k.nspace == some nspace && k.state == .existing && k.keyType == keyType
    (domain = .app ∨ domain = .selinux) ∧ cleared.countP fresh = 1 ∧
      db' = { db with
        keyentry := update fresh (fun k => { k with keyAlias := some keyAlias, state := .live })
          cleared } := by
  unfold rebindAlias at h
  simp only [bind, Except.bind, throw, throwThe, MonadExceptOf.throw, pure, Except.pure] at h
  split_ifs at h with hd hc
  simp only [Except.ok.injEq, Prod.mk.injEq] at h
  exact ⟨hd, not_not.1 hc, h.2.symm⟩

theorem rebindAlias_grantTable {newid : Int64} {keyAlias : String} {domain : Domain}
    {nspace : Int64} {keyType : KeyType} {b : Bool}
    (h : db.rebindAlias newid keyAlias domain nspace keyType = .ok (b, db')) :
    db'.grantTable = db.grantTable := by
  obtain ⟨-, -, rfl⟩ := rebindAlias_eq_ok h
  rfl

theorem storeLocation_eq_ok {key : KeyDescriptor} {keyAlias : String} {domain : Domain}
    {nspace : Int64} (h : storeLocation key = .ok (keyAlias, domain, nspace)) :
    key.keyAlias = some keyAlias ∧ key.blob = none ∧ domain = key.domain ∧
      nspace = key.nspace ∧ (domain = .app ∨ domain = .selinux) := by
  unfold storeLocation at h
  split at h
  · rename_i a ha hb
    split_ifs at h with hd
    simp only [pure, Except.pure, Except.ok.injEq, Prod.mk.injEq] at h
    obtain ⟨rfl, rfl, rfl⟩ := h
    exact ⟨ha, hb, rfl, rfl, hd⟩
  · cases h

theorem loadKeyEntryId_eq_ok {key : KeyDescriptor} {keyType : KeyType} {id : Int64}
    (h : db.loadKeyEntryId key keyType = .ok id) :
    ∃ k ∈ db.keyentry, k.id = id ∧ k.state = .live ∧
      k.location = (keyType, some key.domain, some key.nspace, key.keyAlias) := by
  unfold loadKeyEntryId at h
  split at h
  · rename_i keyAlias hAlias
    simp only [withRowsExtractOne] at h
    split at h
    · cases h
    · rename_i r hr
      simp only [pure, Except.pure, Except.ok.injEq] at h
      have hmem : r ∈ db.keyentry.filter _ := hr ▸ List.mem_singleton_self r
      rw [List.mem_filter] at hmem
      simp only [Bool.and_eq_true, decide_eq_true_eq, beq_iff_eq] at hmem
      exact ⟨r, hmem.1, h, hmem.2.2, hAlias ▸ hmem.2.1⟩
    · exact absurd h Except.throw_ne_ok
  · exact absurd h Except.throw_ne_ok

/-- The outcome of `load_key_entry_id` when it finds no row. -/
theorem loadKeyEntryId_eq_keyNotFound {key : KeyDescriptor} {keyType : KeyType}
    {keyAlias : String} (hAlias : key.keyAlias = some keyAlias)
    (h : db.loadKeyEntryId key keyType = .error (.rc .keyNotFound)) :
    ∀ k ∈ db.keyentry, k.state = .live →
      k.location ≠ (keyType, some key.domain, some key.nspace, some keyAlias) := by
  intro k hk hlive hloc
  unfold loadKeyEntryId at h
  rw [hAlias] at h
  simp only [withRowsExtractOne] at h
  split at h
  · rename_i hnil
    have := List.filter_eq_nil_iff.1 hnil k hk
    simp [hloc, hlive] at this
  · cases h
  · cases h

/-- With at most one live row in the location, `load_key_entry_id` finds the key or reports
that there is none: it never meets two rows. -/
theorem loadKeyEntryId_ok_or_keyNotFound {key : KeyDescriptor} {keyType : KeyType}
    {keyAlias : String} (hAlias : key.keyAlias = some keyAlias)
    (h : (db.keyentry.filter fun k => decide (k.location =
      (keyType, some key.domain, some key.nspace, some keyAlias)) && k.state == .live).length ≤ 1) :
    (∃ id, db.loadKeyEntryId key keyType = .ok id) ∨
      db.loadKeyEntryId key keyType = .error (.rc .keyNotFound) := by
  unfold loadKeyEntryId
  rw [hAlias]
  simp only [withRowsExtractOne]
  split
  · exact Or.inr rfl
  · exact Or.inl ⟨_, rfl⟩
  · rename_i r s rest hrows
    rw [hrows] at h
    simp at h

end Helpers

section Access

/-- A key id that `load_access_tuple` resolves is that of a live entry. -/
theorem loadAccessTuple_live {key : KeyDescriptor} {keyType : KeyType} {callerUid : UInt32}
    {info : KeyAccessInfo} (h : db.loadAccessTuple key keyType callerUid = .ok info) :
    ∃ k ∈ db.keyentry, k.id = info.keyId ∧ k.state = .live := by
  unfold loadAccessTuple at h
  split at h
  · obtain ⟨keyId, hid, h⟩ := Except.bind_eq_ok.1 h
    simp only [Except.pure_eq_ok] at h
    obtain ⟨k, hk, rfl, hlive, -⟩ := loadKeyEntryId_eq_ok hid
    exact ⟨k, hk, by rw [← h], hlive⟩
  split at h
  · obtain ⟨⟨keyId, av⟩, hrows, h⟩ := Except.bind_eq_ok.1 h
    simp only [pure, Except.pure, Except.ok.injEq] at h
    subst h
    simp only [withRowsExtractOne] at hrows
    split at hrows
    · cases hrows
    · rename_i g hg
      simp only [pure, Except.pure, Except.ok.injEq, Prod.mk.injEq] at hrows
      have hmem : g ∈ db.grantTable.filter _ := hg ▸ List.mem_singleton_self g
      rw [List.mem_filter] at hmem
      simp only [Bool.and_eq_true, beq_iff_eq, keyState, Option.map_eq_some_iff] at hmem
      obtain ⟨-, k, hfind, hlive⟩ := hmem.2
      have hk := List.find?_some hfind
      have hid := List.mem_of_find?_eq_some hfind
      exact ⟨k, hid, by simpa [← hrows.1] using hk, hlive⟩
    · exact absurd hrows Except.throw_ne_ok
  split at h
  · obtain ⟨⟨domain, nspace⟩, hrows, h⟩ := Except.bind_eq_ok.1 h
    simp only [pure, Except.pure, Except.ok.injEq] at h
    subst h
    simp only [withRowsExtractOne] at hrows
    split at hrows
    · cases hrows
    · rename_i k hk
      have hmem : k ∈ db.keyentry.filter _ := hk ▸ List.mem_singleton_self k
      rw [List.mem_filter] at hmem
      simp only [Bool.and_eq_true, beq_iff_eq] at hmem
      exact ⟨k, hmem.1, hmem.2.1, hmem.2.2⟩
    · exact absurd hrows Except.throw_ne_ok
  · exact absurd h Except.throw_ne_ok

/-- What `load_access_tuple` resolved: a live entry with the key id and, for a descriptor by
grant, a grant row the caller received for it; otherwise the descriptor names the entry's own
domain and namespace, with the access vector of the caller's grant for it, if any. -/
theorem loadAccessTuple_eq_ok {key : KeyDescriptor} {keyType : KeyType} {callerUid : UInt32}
    {info : KeyAccessInfo} (h : db.loadAccessTuple key keyType callerUid = .ok info) :
    ∃ k ∈ db.keyentry, k.id = info.keyId ∧ k.state = .live ∧
      ((info.descriptor.domain = .grant ∧ ∃ g ∈ db.grantTable, g.grantee = asI64 callerUid ∧
          g.keyentryid = info.keyId ∧ info.vector = some ⟨g.accessVector⟩) ∨
        (k.domain = some info.descriptor.domain ∧ k.nspace = some info.descriptor.nspace ∧
          (info.vector = none ∨ ∃ g ∈ db.grantTable, g.grantee = asI64 callerUid ∧
            g.keyentryid = info.keyId ∧ info.vector = some ⟨g.accessVector⟩))) := by
  unfold loadAccessTuple at h
  split at h
  · -- By alias: the entry is in the location of the access descriptor.
    obtain ⟨keyId, hid, h⟩ := Except.bind_eq_ok.1 h
    rw [Except.pure_eq_ok] at h
    subst h
    obtain ⟨k, hk, hkid, hlive, hloc⟩ := loadKeyEntryId_eq_ok hid
    simp only [KeyEntryRow.location, Prod.mk.injEq] at hloc
    exact ⟨k, hk, hkid, hlive, Or.inr ⟨hloc.2.1, hloc.2.2.1, Or.inl rfl⟩⟩
  split at h
  · -- By grant.
    rename_i hnot hgrant
    obtain ⟨⟨keyId, av⟩, hrows, h⟩ := Except.bind_eq_ok.1 h
    rw [Except.pure_eq_ok] at h
    subst h
    rcases withRowsExtractOne_eq_ok hrows with ⟨-, hnone⟩ | ⟨g, hg, hsome⟩
    · exact absurd hnone Except.throw_ne_ok
    · simp only [Except.pure_eq_ok, Prod.mk.injEq] at hsome
      obtain ⟨rfl, rfl⟩ := hsome
      have hmem : g ∈ db.grantTable.filter _ := hg ▸ List.mem_singleton_self g
      rw [List.mem_filter] at hmem
      simp only [Bool.and_eq_true, beq_iff_eq, keyState, Option.map_eq_some_iff] at hmem
      obtain ⟨⟨hgrantee, -⟩, k, hfind, hlive⟩ := hmem.2
      have hkid : k.id = g.keyentryid := by simpa using List.find?_some hfind
      exact ⟨k, List.mem_of_find?_eq_some hfind, hkid, hlive,
        Or.inl ⟨hgrant, g, hmem.1, hgrantee, rfl, rfl⟩⟩
  split at h
  · -- By key id: the descriptor takes the entry's domain and namespace.
    obtain ⟨⟨domain, nspace⟩, hrows, h⟩ := Except.bind_eq_ok.1 h
    rw [Except.pure_eq_ok] at h
    subst h
    rcases withRowsExtractOne_eq_ok hrows with ⟨-, hnone⟩ | ⟨k, hk, hsome⟩
    · exact absurd hnone Except.throw_ne_ok
    · have hmem : k ∈ db.keyentry.filter _ := hk ▸ List.mem_singleton_self k
      rw [List.mem_filter] at hmem
      simp only [Bool.and_eq_true, beq_iff_eq] at hmem
      refine ⟨k, hmem.1, hmem.2.1, hmem.2.2, Or.inr ?_⟩
      dsimp only at hsome
      split at hsome
      · rename_i d n hd hn
        simp only [Except.pure_eq_ok, Prod.mk.injEq] at hsome
        obtain ⟨rfl, rfl⟩ := hsome
        refine ⟨hd, hn, ?_⟩
        split
        · cases hfind : db.grantTable.find?
              (fun g => g.grantee == asI64 callerUid && g.keyentryid == key.nspace) with
          | none => exact Or.inl rfl
          | some g =>
            have hg := List.find?_some hfind
            simp only [Bool.and_eq_true, beq_iff_eq] at hg
            exact Or.inr ⟨g, List.mem_of_find?_eq_some hfind, hg.1, hg.2, rfl⟩
        · exact Or.inl rfl
      · exact absurd hsome Except.throw_ne_ok
  · exact absurd h Except.throw_ne_ok

/-- A descriptor by grant resolves to the key of a grant row with the grant's id, which the
caller received, and to the access vector of that row. -/
theorem loadAccessTuple_grant {key : KeyDescriptor} {keyType : KeyType} {callerUid : UInt32}
    {info : KeyAccessInfo} (hd : key.domain = .grant)
    (h : db.loadAccessTuple key keyType callerUid = .ok info) :
    ∃ g ∈ db.grantTable, g.id = key.nspace ∧ g.grantee = asI64 callerUid ∧
      db.keyState g.keyentryid = some .live ∧ info = ⟨g.keyentryid, key, some ⟨g.accessVector⟩⟩ := by
  unfold loadAccessTuple at h
  rw [if_neg (by rw [hd]; decide), if_pos hd] at h
  obtain ⟨⟨keyId, av⟩, hrows, h⟩ := Except.bind_eq_ok.1 h
  rw [Except.pure_eq_ok] at h
  subst h
  rcases withRowsExtractOne_eq_ok hrows with ⟨-, hnone⟩ | ⟨g, hg, hsome⟩
  · exact absurd hnone Except.throw_ne_ok
  · simp only [Except.pure_eq_ok, Prod.mk.injEq] at hsome
    obtain ⟨rfl, rfl⟩ := hsome
    have hmem : g ∈ db.grantTable.filter _ := hg ▸ List.mem_singleton_self g
    rw [List.mem_filter] at hmem
    simp only [Bool.and_eq_true, beq_iff_eq] at hmem
    exact ⟨g, hmem.1, hmem.2.1.2, hmem.2.1.1, hmem.2.2, rfl⟩

end Access

section Methods

theorem storeNewKey_eq_ok {key : KeyDescriptor} {keyType : KeyType}
    {params : List KeyParameter} {blobInfo : BlobInfo} {certInfo : CertificateInfo}
    {metadata : KeyMetaData} {kmUuid : Uuid} {newId keyId : Int64}
    (h : db.storeNewKey key keyType params blobInfo certInfo metadata kmUuid newId =
      .ok (keyId, db')) :
    ∃ keyAlias domain nspace, ∃ db₁ : KeystoreDB, ∃ b : Bool,
      storeLocation key = .ok (keyAlias, domain, nspace) ∧ keyId = newId ∧
      db₁.keyentry = db.keyentry ++
        [⟨newId, keyType, some domain, some nspace, none, .existing, kmUuid⟩] ∧
      db₁.grantTable = db.grantTable ∧
      db₁.rebindAlias newId keyAlias domain nspace keyType = .ok (b, db') := by
  unfold storeNewKey at h
  obtain ⟨⟨keyAlias, domain, nspace⟩, hloc, h⟩ := Except.bind_eq_ok.1 h
  obtain ⟨⟨id, db₀⟩, hcreate, h⟩ := Except.bind_eq_ok.1 h
  obtain ⟨-, hid, hdb₀⟩ := createKeyEntryInternal_eq_ok hcreate
  subst id
  dsimp only at h
  obtain ⟨db₂, hsup, h⟩ := Except.bind_eq_ok.1 h
  obtain ⟨db₃, hblob, h⟩ := Except.bind_eq_ok.1 h
  obtain ⟨db₄, hcert, h⟩ := Except.bind_eq_ok.1 h
  obtain ⟨db₅, hchain, h⟩ := Except.bind_eq_ok.1 h
  obtain ⟨⟨b, db₆⟩, hrebind, h⟩ := Except.bind_eq_ok.1 h
  simp only [Except.pure_eq_ok, Prod.mk.injEq] at h
  obtain ⟨rfl, rfl⟩ := h
  -- Each optional blob is a `set_blob_internal` or nothing.
  have h₂ : db₂.keyentry = db₀.keyentry ∧ db₂.grantTable = db₀.grantTable := by
    split at hsup
    · exact setBlobInternal_frame hsup
    · rw [Except.pure_eq_ok] at hsup
      exact hsup ▸ ⟨rfl, rfl⟩
  have h₃ := setBlobInternal_frame hblob
  have h₄ : db₄.keyentry = db₃.keyentry ∧ db₄.grantTable = db₃.grantTable := by
    split at hcert
    · exact setBlobInternal_frame hcert
    · rw [Except.pure_eq_ok] at hcert
      exact hcert ▸ ⟨rfl, rfl⟩
  have h₅ : db₅.keyentry = db₄.keyentry ∧ db₅.grantTable = db₄.grantTable := by
    split at hchain
    · exact setBlobInternal_frame hchain
    · rw [Except.pure_eq_ok] at hchain
      exact hchain ▸ ⟨rfl, rfl⟩
  refine ⟨keyAlias, domain, nspace, _, b, hloc, rfl, ?_, ?_, hrebind⟩
  · simp only [insertKeyparameterInternal, h₅.1, h₄.1, h₃.1, h₂.1, hdb₀]
  · simp only [insertKeyparameterInternal, h₅.2, h₄.2, h₃.2, h₂.2, hdb₀]

theorem storeNewCertificate_eq_ok {key : KeyDescriptor} {keyType : KeyType}
    {cert : List UInt8} {kmUuid : Uuid} {now : DateTime} {newId keyId : Int64}
    (h : db.storeNewCertificate key keyType cert kmUuid now newId = .ok (keyId, db')) :
    ∃ keyAlias domain nspace, ∃ db₁ : KeystoreDB, ∃ b : Bool,
      storeLocation key = .ok (keyAlias, domain, nspace) ∧ keyId = newId ∧
      db₁.keyentry = db.keyentry ++
        [⟨newId, keyType, some domain, some nspace, none, .existing, kmUuid⟩] ∧
      db₁.grantTable = db.grantTable ∧
      db₁.rebindAlias newId keyAlias domain nspace keyType = .ok (b, db') := by
  unfold storeNewCertificate at h
  obtain ⟨⟨keyAlias, domain, nspace⟩, hloc, h⟩ := Except.bind_eq_ok.1 h
  obtain ⟨⟨id, db₀⟩, hcreate, h⟩ := Except.bind_eq_ok.1 h
  obtain ⟨-, hid, hdb₀⟩ := createKeyEntryInternal_eq_ok hcreate
  subst id
  dsimp only at h
  obtain ⟨db₂, hchain, h⟩ := Except.bind_eq_ok.1 h
  obtain ⟨⟨b, db₃⟩, hrebind, h⟩ := Except.bind_eq_ok.1 h
  simp only [pure, Except.pure, Except.ok.injEq, Prod.mk.injEq] at h
  obtain ⟨rfl, rfl⟩ := h
  have h₂ := setBlobInternal_frame hchain
  refine ⟨keyAlias, domain, nspace, _, b, hloc, rfl, ?_, ?_, hrebind⟩
  · simp only [h₂.1, hdb₀]
  · simp only [h₂.2, hdb₀]

theorem storeSuperKey_eq_ok {userId : UInt32} {keyTypeAlias : String} {blob : List UInt8}
    {blobMetadata : BlobMetaData} {keyMetadata : KeyMetaData} {newId : Int64} {e : KeyEntry}
    (h : db.storeSuperKey userId keyTypeAlias blob blobMetadata keyMetadata newId =
      .ok (e, db')) :
    db'.keyentry = db.keyentry ++ [⟨newId, .super, some .app, some (asI64 userId),
      some keyTypeAlias, .live, keystoreUuid⟩] ∧ db'.grantTable = db.grantTable := by
  unfold storeSuperKey at h
  obtain ⟨db₁, hblob, h⟩ := Except.bind_eq_ok.1 h
  obtain ⟨e', -, h⟩ := Except.bind_eq_ok.1 h
  simp only [pure, Except.pure, Except.ok.injEq, Prod.mk.injEq] at h
  obtain ⟨-, rfl⟩ := h
  exact setBlobInternal_frame hblob

/-- `load_super_key` found no key: no live super key of the user has the alias. -/
theorem loadSuperKey_eq_none {keyTypeAlias : String} {userId : UInt32}
    (h : db.loadSuperKey keyTypeAlias userId = .ok none) :
    ∀ k ∈ db.keyentry, k.state = .live →
      k.location ≠ (.super, some .app, some (asI64 userId), some keyTypeAlias) := by
  unfold loadSuperKey at h
  split at h
  · obtain ⟨e, -, h⟩ := Except.bind_eq_ok.1 h
    simp at h
  · rename_i hnf
    exact loadKeyEntryId_eq_keyNotFound rfl hnf
  · exact absurd h Except.throw_ne_ok

theorem migrateKeyNamespace_eq_ok {keyIdGuard : Int64} {destination : KeyDescriptor}
    {callerUid : UInt32} {checkPermission : KeyDescriptor → Except Error Unit}
    (h : db.migrateKeyNamespace keyIdGuard destination callerUid checkPermission = .ok db') :
    ∃ domain nspace keyAlias, (domain = .app ∨ domain = .selinux) ∧
      (∀ k ∈ db.keyentry, k.keyAlias ≠ some keyAlias ∨ k.domain ≠ some domain ∨
        k.nspace ≠ some nspace) ∧
      db.keyentry.countP (·.id == keyIdGuard) = 1 ∧
      db' = { db with
        keyentry := update (·.id == keyIdGuard) (fun k => { k with
          keyAlias := some keyAlias
          domain := some domain
          nspace := some nspace }) db.keyentry } := by
  unfold migrateKeyNamespace at h
  obtain ⟨dest, hdest, h⟩ := Except.bind_eq_ok.1 h
  -- The destination is in `Domain::APP` or `Domain::SELINUX`.
  have hdomain : dest.domain = .app ∨ dest.domain = .selinux := by
    split_ifs at hdest with happ hse
    · rw [Except.pure_eq_ok] at hdest
      exact Or.inl (hdest ▸ happ)
    · rw [Except.pure_eq_ok] at hdest
      exact Or.inr (hdest ▸ hse)
  obtain ⟨u, -, h⟩ := Except.bind_eq_ok.1 h
  split at h
  · rename_i keyAlias hAlias
    simp only [bind, Except.bind, throw, throwThe, MonadExceptOf.throw, pure, Except.pure] at h
    split_ifs at h with hprobe hcount
    simp only [Except.ok.injEq] at h
    refine ⟨dest.domain, dest.nspace, keyAlias, hdomain, ?_, not_not.1 hcount, h.symm⟩
    intro k hk
    have := List.any_eq_false.1 (Bool.eq_false_iff.2 hprobe) k hk
    simp only [Bool.and_eq_true, beq_iff_eq, not_and_or] at this
    rcases this with (h₁ | h₂) | h₃
    · exact Or.inl h₁
    · exact Or.inr (Or.inl h₂)
    · exact Or.inr (Or.inr h₃)
  · exact absurd h Except.throw_ne_ok

/-- A load checks the permission in the state where it starts, and reads the entry from that
state or, when the key-id lock was deferred, from the state of its second transaction, in which
the key id is only looked up again. -/
theorem loadKeyEntry_eq_ok {lockDeferred : Option KeystoreDB} {key : KeyDescriptor}
    {keyType : KeyType} {loadBits : KeyEntryLoadBits} {callerUid : UInt32}
    {checkPermission : KeyDescriptor → Option KeyPermSet → Except Error Unit} {keyId : Int64}
    {entry : KeyEntry}
    (h : db.loadKeyEntry lockDeferred key keyType loadBits callerUid checkPermission =
      .ok (keyId, entry)) :
    ∃ info, db.loadAccessTuple key keyType callerUid = .ok info ∧
      checkPermission info.descriptor info.vector = .ok () ∧ keyId = info.keyId ∧
      ∃ dbRead : KeystoreDB, dbRead.loadKeyComponents loadBits info.keyId = .ok entry ∧
        (dbRead = db ∨ lockDeferred = some dbRead ∧ key.domain ≠ .keyId ∧
          ∃ info', dbRead.loadAccessTuple ⟨.keyId, info.keyId, none, none⟩ keyType callerUid =
            .ok info') := by
  unfold loadKeyEntry at h
  obtain ⟨info, hinfo, h⟩ := Except.bind_eq_ok.1 h
  obtain ⟨u, hcheck, h⟩ := Except.bind_eq_ok.1 h
  obtain ⟨dbRead, hread, h⟩ := Except.bind_eq_ok.1 h
  obtain ⟨entry', hload, h⟩ := Except.bind_eq_ok.1 h
  simp only [Except.pure_eq_ok, Prod.mk.injEq] at h
  obtain ⟨rfl, rfl⟩ := h
  refine ⟨info, hinfo, hcheck, rfl, dbRead, hload, ?_⟩
  split at hread
  · rename_i db' _
    split_ifs at hread with hd
    · exact Or.inl (Except.pure_eq_ok.1 hread).symm
    · obtain ⟨info', hreload, hread⟩ := Except.bind_eq_ok.1 hread
      rw [Except.pure_eq_ok] at hread
      subst hread
      exact Or.inr ⟨rfl, hd, info', hreload⟩
  · exact Or.inl (Except.pure_eq_ok.1 hread).symm

theorem unbindKey_eq_ok {key : KeyDescriptor} {keyType : KeyType} {callerUid : UInt32}
    {checkPermission : KeyDescriptor → Option KeyPermSet → Except Error Unit}
    (h : db.unbindKey key keyType callerUid checkPermission = .ok db') :
    ∃ info, db.loadAccessTuple key keyType callerUid = .ok info ∧
      checkPermission info.descriptor info.vector = .ok () ∧
      db' = (db.markUnreferenced info.keyId).2 := by
  unfold unbindKey at h
  obtain ⟨info, hinfo, h⟩ := Except.bind_eq_ok.1 h
  obtain ⟨u, hcheck, h⟩ := Except.bind_eq_ok.1 h
  simp only [pure, Except.pure, Except.ok.injEq] at h
  exact ⟨info, hinfo, hcheck, h.symm⟩

theorem unbindKeysForNamespace_eq_ok {domain : Domain} {nspace : Int64}
    (h : db.unbindKeysForNamespace domain nspace = .ok db') :
    let inNamespace := fun (k : KeyEntryRow) =>
      k.domain == some domain && k.nspace == some nspace && k.keyType == .client
    let ids := (db.keyentry.filter inNamespace).map (·.id)
    let grants := delete (fun g => ids.contains g.keyentryid) db.grantTable
    db'.keyentry = delete inNamespace db.keyentry ∧
      db'.grantTable = (if domain = .app then delete (·.grantee == nspace) grants else grants) ∧
      db'.blobentry = db.blobentry := by
  unfold unbindKeysForNamespace at h
  simp only [bind, Except.bind, throw, throwThe, MonadExceptOf.throw, pure, Except.pure] at h
  split_ifs at h with hd happ
  · simp only [Except.ok.injEq] at h
    subst h
    intro inNamespace ids grants
    rw [if_pos happ]
    exact ⟨rfl, rfl, rfl⟩
  · simp only [Except.ok.injEq] at h
    subst h
    intro inNamespace ids grants
    rw [if_neg happ]
    exact ⟨rfl, rfl, rfl⟩

theorem checkAndUpdateKeyUsageCount_eq_ok {keyId : Int64}
    (h : db.checkAndUpdateKeyUsageCount keyId = .ok db') :
    ∃ db₁ : KeystoreDB, db₁.keyentry = db.keyentry ∧ db₁.grantTable = db.grantTable ∧
      db₁.blobentry = db.blobentry ∧ (db' = db₁ ∨ db' = (db₁.markUnreferenced keyId).2) := by
  unfold checkAndUpdateKeyUsageCount at h
  dsimp only at h
  split at h
  · rename_i limit hlimit
    simp only [throw, throwThe, MonadExceptOf.throw, pure, Except.pure] at h
    split_ifs at h
    · simp only [Except.ok.injEq] at h
      refine ⟨_, ?_, ?_, ?_, Or.inr h.symm⟩ <;> rfl
    · simp only [Except.ok.injEq] at h
      refine ⟨_, ?_, ?_, ?_, Or.inl h.symm⟩ <;> rfl
  · exact absurd h Except.throw_ne_ok

theorem grant_eq_ok {key : KeyDescriptor} {callerUid granteeUid : UInt32}
    {accessVector : KeyPermSet} {checkPermission : KeyDescriptor → KeyPermSet → Except Error Unit}
    {newId : Int64} {kd : KeyDescriptor}
    (h : db.grant key callerUid granteeUid accessVector checkPermission newId = .ok (kd, db')) :
    ∃ info, db.loadAccessTuple key .client callerUid = .ok info ∧
      checkPermission info.descriptor accessVector = .ok () ∧ db'.keyentry = db.keyentry ∧
      db'.blobentry = db.blobentry ∧
      ((∃ g ∈ db.grantTable, g.keyentryid = info.keyId ∧ g.grantee = asI64 granteeUid ∧
        db'.grantTable = update (·.id == g.id) (fun g => { g with accessVector := accessVector.val })
          db.grantTable) ∨
      ((∀ g ∈ db.grantTable, ¬(g.keyentryid = info.keyId ∧ g.grantee = asI64 granteeUid)) ∧
        db'.grantTable =
          db.grantTable ++ [⟨newId, asI64 granteeUid, info.keyId, accessVector.val⟩])) := by
  unfold grant at h
  obtain ⟨info, hinfo, h⟩ := Except.bind_eq_ok.1 h
  obtain ⟨u, hcheck, h⟩ := Except.bind_eq_ok.1 h
  refine ⟨info, hinfo, hcheck, ?_⟩
  cases hfind : db.grantTable.find?
      (fun g => g.keyentryid == info.keyId && g.grantee == asI64 granteeUid) with
  | some g =>
    simp only [hfind, pure, Except.pure, Except.ok.injEq, Prod.mk.injEq] at h
    obtain ⟨-, rfl⟩ := h
    have hg := List.find?_some hfind
    simp only [Bool.and_eq_true, beq_iff_eq] at hg
    exact ⟨rfl, rfl, Or.inl ⟨g, List.mem_of_find?_eq_some hfind, hg.1, hg.2, rfl⟩⟩
  | none =>
    simp only [hfind, pure, Except.pure, Except.ok.injEq, Prod.mk.injEq] at h
    obtain ⟨-, rfl⟩ := h
    refine ⟨rfl, rfl, Or.inr ⟨?_, rfl⟩⟩
    intro g hg hmatch
    have := List.find?_eq_none.1 hfind g hg
    simp [hmatch] at this

theorem ungrant_eq_ok {key : KeyDescriptor} {callerUid granteeUid : UInt32}
    {checkPermission : KeyDescriptor → Except Error Unit}
    (h : db.ungrant key callerUid granteeUid checkPermission = .ok db') :
    ∃ info, db.loadAccessTuple key .client callerUid = .ok info ∧
      checkPermission info.descriptor = .ok () ∧
      db' = { db with
        grantTable := delete (fun g => g.keyentryid == info.keyId &&
          g.grantee == asI64 granteeUid) db.grantTable } := by
  unfold ungrant at h
  obtain ⟨info, hinfo, h⟩ := Except.bind_eq_ok.1 h
  obtain ⟨u, hcheck, h⟩ := Except.bind_eq_ok.1 h
  simp only [pure, Except.pure, Except.ok.injEq] at h
  exact ⟨info, hinfo, hcheck, h.symm⟩

end Methods

section Statements

variable (db)

@[simp] theorem deleteBlob_keyentry (blobId : Nat) : (db.deleteBlob blobId).keyentry = db.keyentry :=
  rfl

@[simp] theorem deleteBlob_grantTable (blobId : Nat) :
    (db.deleteBlob blobId).grantTable = db.grantTable := rfl

theorem foldl_deleteBlob_frame (ids : List Nat) :
    (ids.foldl deleteBlob db).keyentry = db.keyentry ∧
      (ids.foldl deleteBlob db).grantTable = db.grantTable := by
  induction ids generalizing db with
  | nil => exact ⟨rfl, rfl⟩
  | cons id ids ih =>
    obtain ⟨h₁, h₂⟩ := ih (db.deleteBlob id)
    exact ⟨h₁, h₂⟩

/-- Unbinding keys one after another only deletes grant rows. -/
theorem foldl_markUnreferenced_grantTable (keyIds : List Int64) :
    List.Sublist (keyIds.foldl (fun db keyId => (db.markUnreferenced keyId).2) db).grantTable
      db.grantTable :=
  List.foldlRecOn (motive := fun db' : KeystoreDB => List.Sublist db'.grantTable db.grantTable) keyIds _
    (List.Sublist.refl _) fun _ h _ _ => delete_sublist.trans h

theorem unbindKeysForUser_grantTable (userId : UInt32) :
    List.Sublist (db.unbindKeysForUser userId).grantTable db.grantTable :=
  (foldl_markUnreferenced_grantTable _ _).trans delete_sublist

theorem unbindAuthBoundKeysForUser_grantTable (userId : UInt32) :
    List.Sublist (db.unbindAuthBoundKeysForUser userId).grantTable db.grantTable := by
  unfold unbindAuthBoundKeysForUser
  apply List.foldlRecOn (motive := fun db' : KeystoreDB => List.Sublist db'.grantTable db.grantTable) _ _
    (List.Sublist.refl _)
  intro db' h keyId _
  split
  · exact delete_sublist.trans h
  · exact h

/-- The collector's transaction changes the key entries and grants only by
`cleanup_unreferenced`. -/
theorem handleNextSupersededBlobs_frame (useBlobStateColumn : Bool) (ids : List Nat)
    (maxBlobs : Nat) :
    (db.handleNextSupersededBlobs useBlobStateColumn ids maxBlobs).2.keyentry =
        db.cleanupUnreferenced.keyentry ∧
      (db.handleNextSupersededBlobs useBlobStateColumn ids maxBlobs).2.grantTable =
        db.cleanupUnreferenced.grantTable := by
  obtain ⟨h₁, h₂⟩ := foldl_deleteBlob_frame db ids
  unfold handleNextSupersededBlobs
  dsimp only
  split_ifs <;> simp only [cleanupUnreferenced, h₁, h₂, and_self]

end Statements

end KeystoreDB

end Keystore2.Database
