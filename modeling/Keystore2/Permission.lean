import Mathlib.Tactic.SplitIfs
import Keystore2.Error
import Keystore2.Lib.Except

/-! Key access control of `permission.rs`, with the parts of the AIDL interface
`android.system.keystore2` it reads: the key `Domain`, the `KeyDescriptor` and the
`KeyPermission` bits of an access vector.  The SELinux services (`getcon`,
`lookup_keystore2_key_context` and the policy decision of `selinux::check_permission`) are
left uninterpreted: they are the fields of `SELinux`, over an arbitrary type of security
contexts. -/

namespace Keystore2

/-- The AIDL `Domain` of a key descriptor. -/
structure Domain where
  val : Int32
  deriving DecidableEq, Repr

namespace Domain

def app : Domain := ⟨0⟩
def grant : Domain := ⟨1⟩
def selinux : Domain := ⟨2⟩
def blob : Domain := ⟨3⟩
def keyId : Domain := ⟨4⟩

end Domain

/-- The AIDL `KeyDescriptor`; the field `alias` is `keyAlias` here. -/
structure KeyDescriptor where
  domain : Domain
  nspace : Int64
  keyAlias : Option String
  blob : Option (List UInt8)
  deriving DecidableEq, Repr

/-- `caller_uid as i64`. -/
def asI64 (uid : UInt32) : Int64 := uid.toUInt64.toInt64

/-- `KeyPerm`, the SELinux class `keystore2_key`, valued by the AIDL `KeyPermission` bits. -/
structure KeyPerm where
  val : Int32
  deriving DecidableEq, Repr

namespace KeyPerm

def none : KeyPerm := ⟨0⟩
def delete : KeyPerm := ⟨0x1⟩
def genUniqueId : KeyPerm := ⟨0x2⟩
def getInfo : KeyPerm := ⟨0x4⟩
def grant : KeyPerm := ⟨0x8⟩
def manageBlob : KeyPerm := ⟨0x10⟩
def rebind : KeyPerm := ⟨0x20⟩
def reqForcedOp : KeyPerm := ⟨0x40⟩
def update : KeyPerm := ⟨0x80⟩
def use : KeyPerm := ⟨0x100⟩
def useDevId : KeyPerm := ⟨0x200⟩
def convertStorageKeyToEphemeral : KeyPerm := ⟨0x800⟩

def all : List KeyPerm :=
  [convertStorageKeyToEphemeral, delete, genUniqueId, getInfo, grant, manageBlob, rebind,
    reqForcedOp, update, use, useDevId]

/-- `From<i32> for KeyPerm`: a value that is no permission becomes `None`. -/
def ofI32 (p : Int32) : KeyPerm :=
  if all.contains ⟨p⟩ then ⟨p⟩ else none

end KeyPerm

structure KeyPermSet where
  val : Int32
  deriving DecidableEq, Repr

namespace KeyPermSet

def includes (self : KeyPermSet) (perm : KeyPerm) : Bool :=
  (self.val &&& perm.val) == perm.val

/-- The iterator of a `KeyPermSet`: one permission for each set bit, from the lowest. -/
def toList (self : KeyPermSet) : List KeyPerm :=
  (List.range 32).filterMap fun pos =>
    let p := self.val &&& ((1 : Int32) <<< (Int32.ofNat pos))
    if p != 0 then some (KeyPerm.ofI32 p) else Option.none

end KeyPermSet

/-- The SELinux services the checks consult, over a type `Ctx` of security contexts. -/
structure SELinux (Ctx : Type) where
  getcon : Except Error Ctx
  lookupKeystore2KeyContext : Int64 → Except Error Ctx
  checkPermission : Ctx → Ctx → KeyPerm → Bool

variable {Ctx : Type}

/-- `selinux::check_permission`: a denial is `Error::perm()`. -/
def SELinux.check (se : SELinux Ctx) (source target : Ctx) (perm : KeyPerm) :
    Except Error Unit :=
  if se.checkPermission source target perm then pure () else throw Error.perm

theorem SELinux.check_eq_ok {se : SELinux Ctx} {source target : Ctx} {perm : KeyPerm}
    {u : Unit} :
    se.check source target perm = .ok u ↔ se.checkPermission source target perm = true := by
  unfold SELinux.check
  split <;> simp_all [throw, throwThe, MonadExceptOf.throw, pure, Except.pure]

def checkGrantPermission (se : SELinux Ctx) (callerUid : UInt32) (callerCtx : Ctx)
    (accessVec : KeyPermSet) (key : KeyDescriptor) : Except Error Unit := do
  let targetContext ← (
    if key.domain = .app then
      if asI64 callerUid ≠ key.nspace then throw Error.perm
      else se.getcon
    else if key.domain = .selinux then se.lookupKeystore2KeyContext key.nspace
    else throw Error.sys)
  se.check callerCtx targetContext .grant
  if accessVec.includes .grant then throw Error.perm
  accessVec.toList.forM fun p => se.check callerCtx targetContext p

def checkKeyPermission (se : SELinux Ctx) (callerUid : UInt32) (callerCtx : Ctx)
    (perm : KeyPerm) (key : KeyDescriptor) (accessVector : Option KeyPermSet) :
    Except Error Unit := do
  -- An access vector comes from a grant; it may allow the access on its own.
  if accessVector.any (·.includes perm) then return ()
  let targetContext ← (
    if key.domain = .app then
      if asI64 callerUid ≠ key.nspace then throw Error.perm
      else se.getcon
    else if key.domain = .selinux then se.lookupKeystore2KeyContext key.nspace
    else if key.domain = .grant then
      match accessVector with
      | some _ => throw Error.perm
      | Option.none => throw Error.sys
    else if key.domain = .keyId then throw Error.sys
    else if key.domain = .blob then do
      let tctx ← se.lookupKeystore2KeyContext key.nspace
      se.check callerCtx tctx .manageBlob
      pure tctx
    else throw (.rc .invalidArgument))
  se.check callerCtx targetContext perm

/-- A key permission check passes by the access vector of a grant, as the owning app, by the
SELinux context of the namespace, or for a blob by that context with `manage_blob`. -/
theorem checkKeyPermission_eq_ok {se : SELinux Ctx} {callerUid : UInt32} {callerCtx : Ctx}
    {perm : KeyPerm} {key : KeyDescriptor} {accessVector : Option KeyPermSet}
    (h : checkKeyPermission se callerUid callerCtx perm key accessVector = .ok ()) :
    accessVector.any (·.includes perm) = true ∨
    (key.domain = .app ∧ asI64 callerUid = key.nspace ∧
      ∃ t, se.getcon = .ok t ∧ se.checkPermission callerCtx t perm = true) ∨
    (key.domain = .selinux ∧ ∃ t, se.lookupKeystore2KeyContext key.nspace = .ok t ∧
      se.checkPermission callerCtx t perm = true) ∨
    (key.domain = .blob ∧ ∃ t, se.lookupKeystore2KeyContext key.nspace = .ok t ∧
      se.checkPermission callerCtx t .manageBlob = true ∧
      se.checkPermission callerCtx t perm = true) := by
  unfold checkKeyPermission at h
  by_cases hav : accessVector.any (·.includes perm) = true
  · exact Or.inl hav
  right
  simp only [hav, Bool.false_eq_true, if_false] at h
  obtain ⟨t, ht, hc⟩ := Except.bind_eq_ok.1 h
  have hc := SELinux.check_eq_ok.1 hc
  split_ifs at ht with happ hne hse hgr hkid hblob
  · exact Or.inl ⟨happ, Decidable.not_not.1 hne, t, ht, hc⟩
  · exact Or.inr (Or.inl ⟨hse, t, ht, hc⟩)
  · split at ht <;> exact absurd ht Except.throw_ne_ok
  · obtain ⟨t', ht', ht⟩ := Except.bind_eq_ok.1 ht
    obtain ⟨u, hm, ht⟩ := Except.bind_eq_ok.1 ht
    rw [Except.pure_eq_ok] at ht
    subst ht
    exact Or.inr (Or.inr ⟨hblob, t', ht', SELinux.check_eq_ok.1 hm, hc⟩)

/-- A grant passes only without the `grant` permission in it, by a caller that owns the key or
holds `grant` on its namespace, and that holds every permission it grants. -/
theorem checkGrantPermission_eq_ok {se : SELinux Ctx} {callerUid : UInt32} {callerCtx : Ctx}
    {accessVec : KeyPermSet} {key : KeyDescriptor}
    (h : checkGrantPermission se callerUid callerCtx accessVec key = .ok ()) :
    accessVec.includes .grant = false ∧ ∃ t,
      ((key.domain = .app ∧ asI64 callerUid = key.nspace ∧ se.getcon = .ok t) ∨
        (key.domain = .selinux ∧ se.lookupKeystore2KeyContext key.nspace = .ok t)) ∧
      se.checkPermission callerCtx t .grant = true ∧
      ∀ p ∈ accessVec.toList, se.checkPermission callerCtx t p = true := by
  unfold checkGrantPermission at h
  obtain ⟨t, ht, h⟩ := Except.bind_eq_ok.1 h
  obtain ⟨u, hg, h⟩ := Except.bind_eq_ok.1 h
  split_ifs at h with hinc
  · exact absurd h Except.throw_ne_ok
  refine ⟨Bool.eq_false_iff.2 hinc, t, ?_, SELinux.check_eq_ok.1 hg, ?_⟩
  · split_ifs at ht with happ hne hse
    · exact Or.inl ⟨happ, Decidable.not_not.1 hne, ht⟩
    · exact Or.inr ⟨hse, ht⟩
  · intro p hp
    exact SELinux.check_eq_ok.1 (Except.forM_eq_ok.1 h p hp)
end Keystore2
