import Mathlib.Logic.Function.Iterate
import Mathlib.Data.List.Basic

/-! `BootLevelKeyCache` of `boot_level_keys.rs`.  The cache holds the HKDF key of the current
boot level and of some later levels; the key of level `i + 1` is derived from the key of level
`i`.  `hkdf_expand` is a parameter of the whole module, taken to be total and deterministic.
The `VecDeque` is a list: `push_back` appends, `split_off n` keeps `drop n`, `clear` empties it,
and the `unwrap`s of the source are `getLast!` and `[i]!`.  Levels are `usize` values; they are
`Nat` here, since the sum `current + cache.len()` bounds a cache held in memory. -/

namespace Keystore2.BootLevelKeys

variable {K : Type} (hkdfExpand : Nat → K → String → K)

def hkdfAdvance : String := "Advance KDF one step"

def hkdfAes : String := "Generate AES-256-GCM key"

def hkdfKeySize : Nat := 32

def aes256KeyLength : Nat := 32

/-- One step of the derivation chain: the loop body's `hkdf_expand` call. -/
def advanceKey (k : K) : K := hkdfExpand hkdfKeySize k hkdfAdvance

/-- The key of boot level `l` in the chain that starts at the level zero key `k0`. -/
def levelKey (k0 : K) (l : Nat) : K := (advanceKey hkdfExpand)^[l] k0

/-- `cache` holds the keys of levels `current, current + 1, ...` of the chain from `k0`. -/
def ChainFrom (k0 : K) (current : Nat) (cache : List K) : Prop :=
  ∀ i (h : i < cache.length), cache[i] = levelKey hkdfExpand k0 (current + i)

section Chain

variable {hkdfExpand} {k0 : K}

theorem levelKey_succ (l : Nat) :
    levelKey hkdfExpand k0 (l + 1) = advanceKey hkdfExpand (levelKey hkdfExpand k0 l) :=
  Function.iterate_succ_apply' _ _ _

theorem chainFrom_drop {current : Nat} {cache : List K} (m : Nat)
    (h : ChainFrom hkdfExpand k0 current cache) :
    ChainFrom hkdfExpand k0 (current + m) (cache.drop m) := by
  intro i hi
  rw [List.getElem_drop, h]
  congr 1
  omega

end Chain

structure BootLevelKeyCache (K : Type) where
  current : Nat
  cache : List K

inductive Op
  | advanceBootLevel (newBootLevel : Nat)
  | finish
  | aesKey (bootLevel : Nat)
  | levelAccessible (bootLevel : Nat)
  deriving DecidableEq

namespace BootLevelKeyCache

/-- The invariant stated on the `cache` field in the source. -/
def Consistent (k0 : K) (self : BootLevelKeyCache K) : Prop :=
  ChainFrom hkdfExpand k0 self.current self.cache

def new (levelZeroKey : K) : BootLevelKeyCache K := ⟨0, [levelZeroKey]⟩

def levelAccessible (self : BootLevelKeyCache K) (bootLevel : Nat) : Bool :=
  decide (bootLevel ≥ self.current) && !self.cache.isEmpty

def finish (self : BootLevelKeyCache K) : BootLevelKeyCache K := { self with cache := [] }

theorem levelAccessible_eq_true {self : BootLevelKeyCache K} {l : Nat} :
    self.levelAccessible l = true ↔ self.current ≤ l ∧ self.cache ≠ [] := by
  simp [levelAccessible]

variable {hkdfExpand} in
theorem new_consistent (k0 : K) : (new k0).Consistent hkdfExpand k0 := by
  intro i hi
  simp only [new, List.length_singleton, Nat.lt_one_iff] at hi
  subst hi
  rfl

variable [Inhabited K]

/-- The body of the growth loop of `get_hkdf_key`. -/
def pushNext (cache : List K) : List K :=
  cache ++ [hkdfExpand hkdfKeySize cache.getLast! hkdfAdvance]

def getHkdfKey (self : BootLevelKeyCache K) (bootLevel : Nat) :
    BootLevelKeyCache K × Option K :=
  if !self.levelAccessible bootLevel then (self, none)
  else
    let firstNotCached := self.current + self.cache.length
    let cache := (List.range' firstNotCached (bootLevel + 1 - firstNotCached)).foldl
      (fun cache _ => pushNext hkdfExpand cache) self.cache
    ({ self with cache }, some cache[bootLevel - self.current]!)

def advanceBootLevel (self : BootLevelKeyCache K) (newBootLevel : Nat) : BootLevelKeyCache K :=
  if !self.levelAccessible newBootLevel then self
  else
    let grown := (self.getHkdfKey hkdfExpand newBootLevel).1
    { current := newBootLevel, cache := grown.cache.drop (newBootLevel - grown.current) }

def expandKey (self : BootLevelKeyCache K) (bootLevel outLen : Nat) (info : String) :
    BootLevelKeyCache K × Option K :=
  let (self, key) := self.getHkdfKey hkdfExpand bootLevel
  (self, key.map fun k => hkdfExpand outLen k info)

def aesKey (self : BootLevelKeyCache K) (bootLevel : Nat) : BootLevelKeyCache K × Option K :=
  self.expandKey hkdfExpand bootLevel aes256KeyLength hkdfAes

def step (self : BootLevelKeyCache K) : Op → BootLevelKeyCache K
  | .advanceBootLevel n => self.advanceBootLevel hkdfExpand n
  | .finish => self.finish
  | .aesKey l => (self.aesKey hkdfExpand l).1
  | .levelAccessible _ => self

def run (self : BootLevelKeyCache K) (ops : List Op) : BootLevelKeyCache K :=
  ops.foldl (step hkdfExpand) self

section Chain

variable {hkdfExpand} {k0 : K}

theorem chainFrom_pushNext {current : Nat} {cache : List K} (hne : cache ≠ [])
    (h : ChainFrom hkdfExpand k0 current cache) :
    ChainFrom hkdfExpand k0 current (pushNext hkdfExpand cache) := by
  intro i hi
  simp only [pushNext, List.length_append, List.length_singleton] at hi
  rcases Nat.lt_succ_iff_lt_or_eq.mp hi with hi | rfl
  · simp only [pushNext, List.getElem_append_left hi]
    exact h i hi
  · have hpos : 0 < cache.length := List.length_pos_iff.mpr hne
    have hlast : cache.getLast! = cache[cache.length - 1] :=
      List.getLast!_of_getLast? (by rw [List.getLast?_eq_getElem?, List.getElem?_eq_getElem])
    simp only [pushNext, List.getElem_append_right (Nat.le_refl _), Nat.sub_self,
      List.getElem_singleton, hlast]
    rw [h _ (by omega)]
    change advanceKey hkdfExpand _ = _
    rw [← levelKey_succ]
    congr 1
    omega

/-- The growth loop of `get_hkdf_key` extends the chain by one key per iteration. -/
theorem chainFrom_grow {current : Nat} (levels : List Nat) :
    ∀ cache : List K, cache ≠ [] → ChainFrom hkdfExpand k0 current cache →
      let grown := levels.foldl (fun cache _ => pushNext hkdfExpand cache) cache
      grown.length = cache.length + levels.length ∧ ChainFrom hkdfExpand k0 current grown := by
  induction levels with
  | nil => intro cache _ h; exact ⟨rfl, h⟩
  | cons l levels ih =>
    intro cache hne h
    have hne' : pushNext hkdfExpand cache ≠ [] := by simp [pushNext]
    obtain ⟨hlen, hchain⟩ := ih _ hne' (chainFrom_pushNext hne h)
    refine ⟨?_, hchain⟩
    simp only [List.foldl_cons] at hlen ⊢
    rw [hlen]
    simp [pushNext]
    omega

end Chain

section Ops

variable {hkdfExpand} {k0 : K}

theorem getHkdfKey_of_not_accessible {self : BootLevelKeyCache K} {l : Nat}
    (h : self.levelAccessible l = false) : self.getHkdfKey hkdfExpand l = (self, none) := by
  simp [getHkdfKey, h]

/-- `get_hkdf_key` grows the cache up to the requested level and returns that level's key. -/
theorem getHkdfKey_of_accessible {self : BootLevelKeyCache K} {l : Nat}
    (hc : self.Consistent hkdfExpand k0) (ha : self.levelAccessible l = true) :
    let r := self.getHkdfKey hkdfExpand l
    r.1.current = self.current ∧ r.1.Consistent hkdfExpand k0 ∧
      l - self.current < r.1.cache.length ∧ r.2 = some (levelKey hkdfExpand k0 l) := by
  obtain ⟨hle, hne⟩ := levelAccessible_eq_true.mp ha
  have hgrow := chainFrom_grow
    (List.range' (self.current + self.cache.length) (l + 1 - (self.current + self.cache.length)))
    self.cache hne hc
  simp only [List.length_range'] at hgrow
  obtain ⟨hlen, hchain⟩ := hgrow
  have hlt : l - self.current < self.cache.length + (l + 1 - (self.current + self.cache.length)) := by
    omega
  simp only [getHkdfKey, ha, Bool.not_true, Bool.false_eq_true, ↓reduceIte]
  refine ⟨trivial, hchain, by rw [hlen]; exact hlt, ?_⟩
  rw [getElem!_pos _ _ (by rw [hlen]; exact hlt), hchain _ (by rw [hlen]; exact hlt)]
  congr 2
  omega

theorem advanceBootLevel_of_accessible {self : BootLevelKeyCache K} {n : Nat}
    (hc : self.Consistent hkdfExpand k0) (ha : self.levelAccessible n = true) :
    let r := self.advanceBootLevel hkdfExpand n
    r.current = n ∧ r.Consistent hkdfExpand k0 ∧ r.cache ≠ [] := by
  obtain ⟨hle, -⟩ := levelAccessible_eq_true.mp ha
  obtain ⟨hcur, hchain, hlt, -⟩ := getHkdfKey_of_accessible hc ha
  simp only [advanceBootLevel, ha, Bool.not_true, Bool.false_eq_true, ↓reduceIte]
  refine ⟨trivial, ?_, ?_⟩
  · have hdrop := chainFrom_drop (n - self.current) hchain
    rw [hcur] at hdrop ⊢
    rwa [Nat.add_sub_cancel' hle] at hdrop
  · rw [hcur]
    simp only [ne_eq, List.drop_eq_nil_iff]
    omega

theorem aesKey_eq {self : BootLevelKeyCache K} {l : Nat} (hc : self.Consistent hkdfExpand k0) :
    (self.aesKey hkdfExpand l).2 = if self.levelAccessible l then
      some (hkdfExpand aes256KeyLength (levelKey hkdfExpand k0 l) hkdfAes) else none := by
  cases ha : self.levelAccessible l with
  | false => simp [aesKey, expandKey, getHkdfKey_of_not_accessible ha]
  | true =>
    obtain ⟨-, -, -, hkey⟩ := getHkdfKey_of_accessible hc ha
    simp [aesKey, expandKey, hkey]

end Ops

section Run

variable {hkdfExpand} {k0 : K}

theorem step_consistent {self : BootLevelKeyCache K} (hc : self.Consistent hkdfExpand k0)
    (op : Op) : (self.step hkdfExpand op).Consistent hkdfExpand k0 := by
  cases op with
  | advanceBootLevel n =>
    cases ha : self.levelAccessible n with
    | false => simpa [step, advanceBootLevel, ha] using hc
    | true => exact (advanceBootLevel_of_accessible hc ha).2.1
  | finish => intro i hi; simp [step, finish] at hi
  | aesKey l =>
    cases ha : self.levelAccessible l with
    | false => simpa [step, aesKey, expandKey, getHkdfKey_of_not_accessible ha] using hc
    | true => simpa [step, aesKey, expandKey] using (getHkdfKey_of_accessible hc ha).2.1
  | levelAccessible _ => exact hc

theorem step_current_le {self : BootLevelKeyCache K} (hc : self.Consistent hkdfExpand k0)
    (op : Op) : self.current ≤ (self.step hkdfExpand op).current := by
  cases op with
  | advanceBootLevel n =>
    cases ha : self.levelAccessible n with
    | false => simp [step, advanceBootLevel, ha]
    | true =>
      rw [step, (advanceBootLevel_of_accessible hc ha).1]
      exact (levelAccessible_eq_true.mp ha).1
  | finish => exact Nat.le_refl _
  | aesKey l =>
    cases ha : self.levelAccessible l with
    | false => simp [step, aesKey, expandKey, getHkdfKey_of_not_accessible ha]
    | true => simp [step, aesKey, expandKey, (getHkdfKey_of_accessible hc ha).1]
  | levelAccessible _ => exact Nat.le_refl _

/-- Only `finish` empties the cache, and nothing refills an empty one. -/
theorem step_cache_eq_nil {self : BootLevelKeyCache K} (hc : self.Consistent hkdfExpand k0)
    (op : Op) : (self.step hkdfExpand op).cache = [] ↔ self.cache = [] ∨ op = .finish := by
  cases op with
  | advanceBootLevel n =>
    cases ha : self.levelAccessible n with
    | false => simp [step, advanceBootLevel, ha]
    | true =>
      have hne := (levelAccessible_eq_true.mp ha).2
      simp [step, (advanceBootLevel_of_accessible hc ha).2.2, hne]
  | finish => simp [step, finish]
  | aesKey l =>
    cases ha : self.levelAccessible l with
    | false => simp [step, aesKey, expandKey, getHkdfKey_of_not_accessible ha]
    | true =>
      obtain ⟨-, -, hlt, -⟩ := getHkdfKey_of_accessible hc ha
      have hne := (levelAccessible_eq_true.mp ha).2
      simp only [step, aesKey, expandKey, hne, reduceCtorEq, or_false, iff_false]
      exact List.ne_nil_of_length_pos (by omega)
  | levelAccessible _ => simp [step]

theorem levelAccessible_step_of_false {self : BootLevelKeyCache K}
    (hc : self.Consistent hkdfExpand k0) {l : Nat} (h : self.levelAccessible l = false) (op : Op) :
    (self.step hkdfExpand op).levelAccessible l = false := by
  have hcur := step_current_le hc op
  have hnil := step_cache_eq_nil hc op
  simp only [levelAccessible, Bool.and_eq_false_iff, decide_eq_false_iff_not, Bool.not_eq_false',
    List.isEmpty_iff] at h ⊢
  rcases h with h | h
  · exact Or.inl (by omega)
  · exact Or.inr (hnil.mpr (Or.inl h))

theorem run_cons (self : BootLevelKeyCache K) (op : Op) (ops : List Op) :
    self.run hkdfExpand (op :: ops) = (self.step hkdfExpand op).run hkdfExpand ops := rfl

theorem run_consistent {self : BootLevelKeyCache K} (hc : self.Consistent hkdfExpand k0)
    (ops : List Op) : (self.run hkdfExpand ops).Consistent hkdfExpand k0 := by
  induction ops generalizing self with
  | nil => exact hc
  | cons op ops ih => exact ih (step_consistent hc op)

theorem run_cache_eq_nil {self : BootLevelKeyCache K} (hc : self.Consistent hkdfExpand k0)
    (ops : List Op) : (self.run hkdfExpand ops).cache = [] ↔ self.cache = [] ∨ .finish ∈ ops := by
  induction ops generalizing self with
  | nil => simp [run]
  | cons op ops ih =>
    rw [run_cons, ih (step_consistent hc op), step_cache_eq_nil hc op, List.mem_cons]
    constructor
    · rintro ((h | rfl) | h)
      · exact Or.inl h
      · exact Or.inr (Or.inl rfl)
      · exact Or.inr (Or.inr h)
    · rintro (h | rfl | h)
      · exact Or.inl (Or.inl h)
      · exact Or.inl (Or.inr rfl)
      · exact Or.inr h

theorem run_levelAccessible_of_false {self : BootLevelKeyCache K}
    (hc : self.Consistent hkdfExpand k0) {l : Nat} (h : self.levelAccessible l = false)
    (ops : List Op) : (self.run hkdfExpand ops).levelAccessible l = false := by
  induction ops generalizing self with
  | nil => exact h
  | cons op ops ih =>
    exact ih (step_consistent hc op) (levelAccessible_step_of_false hc h op)

/-- Every run from `new k0` keeps the cache on the derivation chain of `k0`, never lowers
`current`, answers `aes_key(l)` with the key of level `l` exactly while `l` is at least
`current` and `finish` has not run, and never makes an inaccessible level accessible again. -/
theorem bootLevelKeyCache_history_independence (k0 : K) (ops : List Op) :
    let s := (new k0).run hkdfExpand ops
    s.Consistent hkdfExpand k0 ∧
    (∀ op, s.current ≤ (s.step hkdfExpand op).current) ∧
    (∀ l, (s.aesKey hkdfExpand l).2 = if s.current ≤ l ∧ Op.finish ∉ ops then
      some (hkdfExpand aes256KeyLength (levelKey hkdfExpand k0 l) hkdfAes) else none) ∧
    (∀ l, (s.levelAccessible l = false ∨ (s.aesKey hkdfExpand l).2 = none) →
      ∀ later, (s.run hkdfExpand later).levelAccessible l = false ∧
        ((s.run hkdfExpand later).aesKey hkdfExpand l).2 = none) := by
  intro s
  have hc : s.Consistent hkdfExpand k0 := run_consistent (new_consistent k0) ops
  have hnil : s.cache = [] ↔ Op.finish ∈ ops := by
    rw [run_cache_eq_nil (new_consistent k0) ops]
    simp [new]
  have hacc : ∀ l, s.levelAccessible l = true ↔ s.current ≤ l ∧ Op.finish ∉ ops := by
    intro l
    rw [levelAccessible_eq_true, ← hnil]
  refine ⟨hc, step_current_le hc, ?_, ?_⟩
  · intro l
    rw [aesKey_eq hc]
    by_cases h : s.current ≤ l ∧ Op.finish ∉ ops
    · rw [if_pos ((hacc l).mpr h), if_pos h]
    · rw [if_neg (fun h' => h ((hacc l).mp h')), if_neg h]
  · intro l hrep later
    have hfalse : s.levelAccessible l = false := by
      rcases hrep with h | h
      · exact h
      · cases ha : s.levelAccessible l with
        | false => rfl
        | true => simp [aesKey_eq hc, ha] at h
    have hlater := run_levelAccessible_of_false hc hfalse later
    refine ⟨hlater, ?_⟩
    rw [aesKey_eq (run_consistent hc later), hlater]
    rfl

end Run

end BootLevelKeyCache

end Keystore2.BootLevelKeys
