import Keystore2.SuperKey
import Keystore2.BootLevelKeys

/-! The boot level half of `SuperKeyManager`: `level_accessible` and the `BootLevel` case of
`lookup_key`, over the `boot_level_key_cache` of `SkmState`, which `BootLevelKeys` models.
Both take the `i32` of a `MAX_BOOT_LEVEL` parameter or of a `MaxBootLevel` blob metadata entry
and pass the cache `level as usize`, which on a 64-bit target is the level modulo `2^64`: a
negative level becomes a level near `usize::MAX`. -/

namespace Keystore2.SuperKeyManager

open BootLevelKeys

/-- `level as usize`. -/
def asUsize (level : Int32) : Nat := (level.toInt % 2 ^ 64).toNat

theorem asUsize_of_nonneg {level : Int32} (h : 0 ≤ level) : asUsize level = level.toInt.toNat := by
  have h0 := Int32.le_iff_toInt_le.mp h
  have hlt := level.toInt_lt
  rw [Int32.toInt_zero] at h0
  simp only [asUsize]
  congr 1
  omega

theorem asUsize_of_neg {level : Int32} (h : level < 0) :
    asUsize level = (2 ^ 64 + level.toInt).toNat := by
  have h0 := Int32.lt_iff_toInt_lt.mp h
  have hle := level.le_toInt
  rw [Int32.toInt_zero] at h0
  simp only [asUsize]
  congr 1
  omega

section

variable {K : Type}

/-- `SuperKeyManager::level_accessible`; the cache is `None` until it is set up. -/
def levelAccessible (bootLevelKeyCache : Option (BootLevelKeyCache K)) (bootLevel : Int32) :
    Bool :=
  match bootLevelKeyCache with
  | some c => c.levelAccessible (asUsize bootLevel)
  | none => false

theorem levelAccessible_eq_true {cache : Option (BootLevelKeyCache K)} {level : Int32} :
    levelAccessible cache level = true ↔
      ∃ c, cache = some c ∧ c.current ≤ asUsize level ∧ c.cache ≠ [] := by
  cases cache with
  | none => simp [levelAccessible]
  | some c => simp [levelAccessible, BootLevelKeyCache.levelAccessible_eq_true]

/-- For a level of at least zero, accessibility is what the claim says. -/
theorem levelAccessible_of_nonneg {cache : Option (BootLevelKeyCache K)} {level : Int32}
    (h : 0 ≤ level) :
    levelAccessible cache level = true ↔
      ∃ c, cache = some c ∧ (c.current : Int) ≤ level.toInt ∧ c.cache ≠ [] := by
  have h0 := Int32.le_iff_toInt_le.mp h
  rw [Int32.toInt_zero] at h0
  rw [levelAccessible_eq_true, asUsize_of_nonneg h]
  constructor
  · rintro ⟨c, hc, hle, hne⟩
    exact ⟨c, hc, by omega, hne⟩
  · rintro ⟨c, hc, hle, hne⟩
    exact ⟨c, hc, by omega, hne⟩

/-- A negative level is accessible from every cache that is not finished and whose current
boot level is below `2^63`. -/
theorem levelAccessible_of_neg {c : BootLevelKeyCache K} {level : Int32} (h : level < 0)
    (hcur : c.current < 2 ^ 63) (hne : c.cache ≠ []) :
    levelAccessible (some c) level = true := by
  have hle := level.le_toInt
  rw [levelAccessible_eq_true, asUsize_of_neg h]
  exact ⟨c, rfl, by omega, hne⟩

end

variable (hkdfExpand : Nat → List UInt8 → String → List UInt8)

/-- `lookup_key`.  The cache is behind a mutex, and a lookup leaves it grown; `alloc` names the
`Arc` that a boot level key is made in. -/
def lookupKey (s : SkmState) (bootLevelKeyCache : Option (BootLevelKeyCache (List UInt8)))
    (alloc : Nat) :
    SuperKeyIdentifier → Option (BootLevelKeyCache (List UInt8)) × Option SuperKey
  | .databaseId id => (bootLevelKeyCache, s.lookupKey id)
  | .bootLevel level =>
    match bootLevelKeyCache with
    | some c =>
      let (c, key) := c.aesKey hkdfExpand (asUsize level)
      (some c, key.map fun key => ⟨alloc, .aes256Gcm, key, .bootLevel level, none⟩)
    | none => (none, none)

variable {hkdfExpand}

/-- A boot level key is found exactly when its level is accessible, and it is the AES key of
that level of the chain. -/
theorem lookupKey_bootLevel {s : SkmState} {c : BootLevelKeyCache (List UInt8)}
    {k0 : List UInt8} (hc : c.Consistent hkdfExpand k0) (alloc : Nat) (level : Int32) :
    (lookupKey hkdfExpand s (some c) alloc (.bootLevel level)).2 =
      if levelAccessible (some c) level then
        some ⟨alloc, .aes256Gcm,
          hkdfExpand aes256KeyLength (levelKey hkdfExpand k0 (asUsize level)) hkdfAes,
          .bootLevel level, none⟩
      else none := by
  have hkey := BootLevelKeyCache.aesKey_eq (l := asUsize level) hc
  simp only [lookupKey, levelAccessible]
  rw [hkey]
  by_cases ha : c.levelAccessible (asUsize level) = true <;> simp [ha]

/-- The level `-1` is accessible from a fresh cache, and looking its key up grows the cache to
the level `2^64 - 1`. -/
theorem lookupKey_negative_bootLevel (s : SkmState) (k0 : List UInt8) (alloc : Nat) :
    levelAccessible (some (BootLevelKeyCache.new k0)) (-1) = true ∧
      ∃ c k, lookupKey hkdfExpand s (some (.new k0)) alloc (.bootLevel (-1)) = (some c, some k) ∧
        2 ^ 64 - 1 < c.cache.length := by
  have hneg : asUsize (-1) = 2 ^ 64 - 1 := by decide
  have ha : (BootLevelKeyCache.new k0).levelAccessible (asUsize (-1)) = true := by
    rw [hneg]
    rfl
  obtain ⟨-, -, hlen, hkey⟩ :=
    BootLevelKeyCache.getHkdfKey_of_accessible (BootLevelKeyCache.new_consistent k0) ha
  -- the growth loop has pushed the keys of every level up to `2^64 - 1`
  rcases hr : (BootLevelKeyCache.new k0).getHkdfKey hkdfExpand (asUsize (-1)) with ⟨c, key⟩
  rw [hr] at hlen hkey
  simp only at hkey
  subst hkey
  refine ⟨ha, c, ⟨alloc, .aes256Gcm,
    hkdfExpand aes256KeyLength (levelKey hkdfExpand k0 (asUsize (-1))) hkdfAes, .bootLevel (-1),
    none⟩, by simp only [lookupKey, BootLevelKeyCache.aesKey, BootLevelKeyCache.expandKey, hr,
    Option.map_some], ?_⟩
  rw [hneg] at hlen
  simpa [BootLevelKeyCache.new] using hlen

end Keystore2.SuperKeyManager
