import Mathlib.Data.FinEnum

/-! The file names of `LegacyBlobLoader` in `legacy_blob.rs`.  A legacy entry of uid `u` is the
file `user_<user id>/<u>_<encoded alias>` of the keystore directory; the alias is encoded so
that every byte outside `'0'..='~'` becomes two printable bytes.  Strings are their UTF-8
bytes: a file name is a name of the directory, and `to_str` keeps the names that are UTF-8.
Slicing a `str` at a byte that is not a char boundary panics; a panic is the result `none`. -/

namespace Keystore2.LegacyBlob

abbrev Bytes := List UInt8

/-- The errors of the listing: `Error::BadEncoding`, and the `FromUtf8Error` of a decoded alias
that is not UTF-8. -/
inductive LegacyError
  | badEncoding
  | invalidUtf8
  deriving DecidableEq, Repr

/-- The bytes of an ASCII string. -/
def ascii (s : String) : Bytes := s.toList.map fun c => c.toNat.toUInt8

def isCont (b : UInt8) : Bool := 0x80 ≤ b && b ≤ 0xBF

/-- The well-formed UTF-8 byte sequences, those that `str::from_utf8` accepts. -/
def utf8Valid : Bytes → Bool
  | [] => true
  | b :: bs =>
    if b ≤ 0x7F then utf8Valid bs
    else if 0xC2 ≤ b && b ≤ 0xDF then
      match bs with
      | c :: bs => isCont c && utf8Valid bs
      | [] => false
    else if 0xE0 ≤ b && b ≤ 0xEF then
      match bs with
      | c1 :: c2 :: bs =>
        (if b = 0xE0 then 0xA0 ≤ c1 && c1 ≤ 0xBF
          else if b = 0xED then 0x80 ≤ c1 && c1 ≤ 0x9F else isCont c1) &&
          isCont c2 && utf8Valid bs
      | _ => false
    else if 0xF0 ≤ b && b ≤ 0xF4 then
      match bs with
      | c1 :: c2 :: c3 :: bs =>
        (if b = 0xF0 then 0x90 ≤ c1 && c1 ≤ 0xBF
          else if b = 0xF4 then 0x80 ≤ c1 && c1 ≤ 0x8F else isCont c1) &&
          isCont c2 && isCont c3 && utf8Valid bs
      | _ => false
    else false

/-- `str::is_char_boundary`: the start, the end, or a byte that does not continue a
character. -/
def isCharBoundary (s : Bytes) (index : Nat) : Bool :=
  index == 0 ||
    match s[index]? with
    | some b => b < 0x80 || 0xC0 ≤ b
    | none => index == s.length

/-- `&s[start..]`. -/
def sliceFrom (s : Bytes) (start : Nat) : Option Bytes :=
  if isCharBoundary s start then some (s.drop start) else none

/-- `u32::to_string`. -/
def uidString (uid : UInt32) : Bytes := (Nat.toDigits 10 uid.toNat).map fun c => c.toNat.toUInt8

def knownKeystorePrefixes : List Bytes :=
  [ascii "USRPKEY_", ascii "USRSKEY_", ascii "USRCERT_", ascii "CACERT_"]

def isKeystoreAlias (encodedAlias : Bytes) : Bool :=
  knownKeystorePrefixes.any fun pre => pre.isPrefixOf encodedAlias

def encodeAlias (name : Bytes) : Bytes :=
  name.flatMap fun c =>
    if 0x30 ≤ c && c ≤ 0x7E then [c] else [(0x2B : UInt8) + (c >>> 6), 0x30 + (c &&& 0x3F)]

/-- One byte of the loop of `decode_alias`: the first byte of a pair that is pending, and the
bytes decoded so far. -/
def decodeStep : Option UInt8 × Bytes → UInt8 → Except LegacyError (Option UInt8 × Bytes)
  | (some m, s), c =>
    if 0x30 ≤ c && c ≤ 0x6F then pure (none, s ++ [m ||| (c - 0x30)]) else throw .badEncoding
  | (none, s), c =>
    if 0x2B ≤ c && c ≤ 0x2E then pure (some ((c - 0x2B) <<< 6), s)
    else if 0x30 ≤ c && c ≤ 0x7E then pure (none, s ++ [c])
    else throw .badEncoding

def decodeAlias (name : Bytes) : Except LegacyError Bytes := do
  let (multi, s) ← name.foldlM decodeStep (none, [])
  if multi.isSome then throw .badEncoding
  if utf8Valid s then pure s else throw .invalidUtf8

/-- The two bytes that stand for a byte in `encode_alias`. -/
def escapePair (c : UInt8) : Bytes := [(0x2B : UInt8) + (c >>> 6), 0x30 + (c &&& 0x3F)]

/-- The names that spell an alias byte by byte: a byte of `'0'..='~'` as itself, and any byte
as its escape pair.  `encode_alias` writes the spelling that escapes only the bytes outside
`'0'..='~'`; `decode_alias` reads every spelling of a UTF-8 alias. -/
inductive Spells : Bytes → Bytes → Prop
  | nil : Spells [] []
  | literal {c : UInt8} {a t : Bytes} :
      (0x30 ≤ c && c ≤ 0x7E) = true → Spells a t → Spells (c :: a) (c :: t)
  | escape {c : UInt8} {a t : Bytes} : Spells a t → Spells (c :: a) (escapePair c ++ t)

section Alias

/-- A byte outside `'0'..='~'` is encoded as two printable bytes that the decoder reads as a
pair and decodes back to it. -/
theorem encodePair_decodes : ∀ c : UInt8,
    ((0x2B : UInt8) ≤ (0x2B : UInt8) + (c >>> 6) ∧ (0x2B : UInt8) + (c >>> 6) ≤ 0x2E) ∧
      ((0x30 : UInt8) ≤ (0x30 : UInt8) + (c &&& 0x3F) ∧ (0x30 : UInt8) + (c &&& 0x3F) ≤ 0x6F) ∧
      ((0x2B : UInt8) + (c >>> 6) - 0x2B) <<< 6 ||| ((0x30 : UInt8) + (c &&& 0x3F) - 0x30) = c := by
  decide +kernel

/-- A printable byte does not start a pair. -/
theorem printable_not_pairStart {c : UInt8} (hc : (0x30 ≤ c && c ≤ 0x7E) = true) :
    (0x2B ≤ c && c ≤ 0x2E) = false := by
  have h : ∀ c : UInt8, (0x30 ≤ c && c ≤ 0x7E) = true → (0x2B ≤ c && c ≤ 0x2E) = false := by
    decide +kernel
  exact h c hc

theorem pairStart_cases : ∀ {c : UInt8}, (0x2B ≤ c && c ≤ 0x2E) = true →
    c = 0x2B ∨ c = 0x2C ∨ c = 0x2D ∨ c = 0x2E := by
  decide +kernel

/-- Every pair the decoder accepts is the escape of the byte it decodes to. -/
theorem escapePair_of_pair {c d : UInt8} (hc : (0x2B ≤ c && c ≤ 0x2E) = true)
    (hd : (0x30 ≤ d && d ≤ 0x6F) = true) :
    escapePair (((c - 0x2B) <<< 6) ||| (d - 0x30)) = [c, d] := by
  -- one closed check over the second byte for each of the four first bytes
  revert d
  rcases pairStart_cases hc with rfl | rfl | rfl | rfl <;> decide +kernel

theorem encodeAlias_cons (c : UInt8) (a : Bytes) :
    encodeAlias (c :: a) =
      (if 0x30 ≤ c && c ≤ 0x7E then [c] else [(0x2B : UInt8) + (c >>> 6), 0x30 + (c &&& 0x3F)]) ++
        encodeAlias a :=
  List.flatMap_cons

/-- `encode_alias` writes a spelling of its alias, escaping the bytes outside `'0'..='~'`. -/
theorem spells_encodeAlias (a : Bytes) : Spells a (encodeAlias a) := by
  induction a with
  | nil => exact .nil
  | cons c a ih =>
    rw [encodeAlias_cons]
    split
    · exact .literal ‹_› ih
    · exact .escape ih

/-! The two states of the loop of `decode_alias`, as steps and as their inversions. -/

theorem decodeStep_literal {c : UInt8} (hc : (0x30 ≤ c && c ≤ 0x7E) = true) (s : Bytes) :
    decodeStep (none, s) c = .ok (none, s ++ [c]) := by
  simp only [decodeStep, printable_not_pairStart hc, hc, Bool.false_eq_true, if_false, if_true]
  rfl

theorem decodeStep_none_eq_ok {c : UInt8} {s : Bytes} {st : Option UInt8 × Bytes}
    (h : decodeStep (none, s) c = .ok st) :
    ((0x2B ≤ c && c ≤ 0x2E) = true ∧ st = (some ((c - 0x2B) <<< 6), s)) ∨
      ((0x30 ≤ c && c ≤ 0x7E) = true ∧ st = (none, s ++ [c])) := by
  simp only [decodeStep] at h
  split at h
  · cases h
    exact .inl ⟨‹_›, rfl⟩
  · split at h
    · cases h
      exact .inr ⟨‹_›, rfl⟩
    · cases h

theorem decodeStep_some_eq_ok {m d : UInt8} {s : Bytes} {st : Option UInt8 × Bytes}
    (h : decodeStep (some m, s) d = .ok st) :
    (0x30 ≤ d && d ≤ 0x6F) = true ∧ st = (none, s ++ [m ||| (d - 0x30)]) := by
  simp only [decodeStep] at h
  split at h
  · cases h
    exact ⟨‹_›, rfl⟩
  · cases h

/-- The decoder reads a pair back as the byte it encodes. -/
theorem foldlM_decodeStep_pair (c : UInt8) (s : Bytes) :
    [(0x2B : UInt8) + (c >>> 6), 0x30 + (c &&& 0x3F)].foldlM decodeStep (none, s) =
      .ok (none, s ++ [c]) := by
  obtain ⟨⟨h1, h1'⟩, ⟨h2, h2'⟩, h3⟩ := encodePair_decodes c
  simp only [List.foldlM_cons, List.foldlM_nil, decodeStep, h1, h1', h2, h2', decide_true,
    Bool.and_self, if_true, pure_bind, bind_pure, h3]
  rfl

/-- The loop reads every spelling back as the bytes it spells, with no pair left open. -/
theorem foldlM_decodeStep_of_spells {a t : Bytes} (h : Spells a t) (s : Bytes) :
    t.foldlM decodeStep (none, s) = .ok (none, s ++ a) := by
  induction h generalizing s with
  | nil => simp [pure, Except.pure]
  | @literal c a t hc _ ih =>
    rw [List.foldlM_cons, decodeStep_literal hc]
    show t.foldlM decodeStep (none, s ++ [c]) = _
    rw [ih]
    simp
  | @escape c a t _ ih =>
    rw [escapePair, List.foldlM_append, foldlM_decodeStep_pair]
    show t.foldlM decodeStep (none, s ++ [c]) = _
    rw [ih]
    simp

/-- A name the loop reads to the end with no pair left open spells what it decodes to. -/
theorem spells_of_foldlM_decodeStep : ∀ {t s r : Bytes},
    t.foldlM decodeStep (none, s) = .ok (none, r) → ∃ a, r = s ++ a ∧ Spells a t
  | [], s, r, h => by
    cases h
    exact ⟨[], by simp, .nil⟩
  | c :: t, s, r, h => by
    rw [List.foldlM_cons] at h
    rcases hc : decodeStep (none, s) c with e | st
    · rw [hc] at h
      cases h
    rw [hc] at h
    simp only [bind, Except.bind] at h
    rcases decodeStep_none_eq_ok hc with ⟨hstart, rfl⟩ | ⟨hlit, rfl⟩
    · -- the first byte of a pair: the next byte must close it
      cases t with
      | nil => cases h
      | cons d t =>
        rw [List.foldlM_cons] at h
        rcases hd : decodeStep (some ((c - 0x2B) <<< 6), s) d with e | st
        · rw [hd] at h
          cases h
        rw [hd] at h
        simp only [bind, Except.bind] at h
        obtain ⟨hclose, rfl⟩ := decodeStep_some_eq_ok hd
        obtain ⟨a, rfl, ha⟩ := spells_of_foldlM_decodeStep h
        refine ⟨(((c - 0x2B) <<< 6) ||| (d - 0x30)) :: a, by simp, ?_⟩
        have hesc := Spells.escape (c := ((c - 0x2B) <<< 6) ||| (d - 0x30)) ha
        rwa [escapePair_of_pair hstart hclose] at hesc
    · obtain ⟨a, rfl, ha⟩ := spells_of_foldlM_decodeStep h
      exact ⟨c :: a, by simp, .literal hlit ha⟩

theorem foldlM_decodeStep_encodeAlias (a s : Bytes) :
    (encodeAlias a).foldlM decodeStep (none, s) = .ok (none, s ++ a) :=
  foldlM_decodeStep_of_spells (spells_encodeAlias a) s

theorem utf8Valid_cons_of_le {b : UInt8} {l : Bytes} (hb : b ≤ 0x7F) :
    utf8Valid (b :: l) = utf8Valid l := by
  rw [utf8Valid.eq_def]
  dsimp only
  rw [if_pos hb]

theorem utf8Valid_of_forall_le : ∀ {l : Bytes}, (∀ b ∈ l, b ≤ 0x7F) → utf8Valid l = true
  | [], _ => rfl
  | b :: l, h => by
    rw [utf8Valid_cons_of_le (h b List.mem_cons_self)]
    exact utf8Valid_of_forall_le fun x hx => h x (List.mem_cons_of_mem _ hx)

/-- Every byte of an encoded alias lies in `'+'..='.'` or in `'0'..='~'`. -/
theorem mem_encodeAlias_range {a : Bytes} {b : UInt8} (hb : b ∈ encodeAlias a) :
    (0x2B ≤ b ∧ b ≤ 0x2E) ∨ (0x30 ≤ b ∧ b ≤ 0x7E) := by
  obtain ⟨c, -, hc⟩ := List.mem_flatMap.mp hb
  split at hc
  · -- a printable byte is kept
    next hp =>
    simp only [Bool.and_eq_true, decide_eq_true_eq] at hp
    rw [List.mem_singleton.mp hc]
    exact .inr hp
  · -- a pair is a byte of '+'..='.' and one of '0'..='o'
    obtain ⟨h1, ⟨h2, h2'⟩, -⟩ := encodePair_decodes c
    rcases List.mem_pair.mp hc with rfl | rfl
    · exact .inl h1
    · exact .inr ⟨h2, UInt8.le_trans h2' (by decide)⟩

/-- The encoding of an alias is printable ASCII. -/
theorem le_of_mem_encodeAlias {a : Bytes} {b : UInt8} (hb : b ∈ encodeAlias a) : b ≤ 0x7F := by
  rcases mem_encodeAlias_range hb with ⟨-, h⟩ | ⟨-, h⟩
  · exact UInt8.le_trans h (by decide)
  · exact UInt8.le_trans h (by decide)

/-- `decode_alias` inverts `encode_alias` on every UTF-8 alias. -/
theorem decodeAlias_encodeAlias {a : Bytes} (ha : utf8Valid a = true) :
    decodeAlias (encodeAlias a) = .ok a := by
  simp [decodeAlias, foldlM_decodeStep_encodeAlias, ha, bind, Except.bind, pure, Except.pure]

/-- Every alias comes back from its file name, and the file name holds only bytes of
`'+'..='.'` and `'0'..='~'`: never a `'/'` or a NUL. -/
theorem encodeAlias_roundTrip_printable {a : Bytes} (ha : utf8Valid a = true) :
    decodeAlias (encodeAlias a) = .ok a ∧
      ∀ b ∈ encodeAlias a, (0x2B ≤ b ∧ b ≤ 0x2E) ∨ (0x30 ≤ b ∧ b ≤ 0x7E) :=
  ⟨decodeAlias_encodeAlias ha, fun _ hb => mem_encodeAlias_range hb⟩

/-- The alias `"é"`, two bytes that are both escaped. -/
theorem encodeAlias_roundTrip_printable_eAcute :
    utf8Valid [0xC3, 0xA9] = true ∧
      (decodeAlias (encodeAlias [0xC3, 0xA9]) = .ok [0xC3, 0xA9] ∧
        ∀ b ∈ encodeAlias [0xC3, 0xA9], (0x2B ≤ b ∧ b ≤ 0x2E) ∨ (0x30 ≤ b ∧ b ≤ 0x7E)) :=
  ⟨by decide, encodeAlias_roundTrip_printable (by decide)⟩

/-- `decode_alias` accepts exactly the spellings of the UTF-8 aliases. -/
theorem decodeAlias_eq_ok_iff (t a : Bytes) :
    decodeAlias t = .ok a ↔ utf8Valid a = true ∧ Spells a t := by
  constructor
  · intro h
    unfold decodeAlias at h
    rcases hf : t.foldlM decodeStep (none, []) with e | ⟨multi, r⟩
    · rw [hf] at h
      cases h
    rw [hf] at h
    -- a pair left open is an error; otherwise the decoded bytes are the alias
    cases multi with
    | some m => cases h
    | none =>
      simp only [bind, Except.bind, Option.isSome_none, Bool.false_eq_true, if_false] at h
      split at h
      · cases h
        obtain ⟨a, rfl, ha⟩ := spells_of_foldlM_decodeStep hf
        exact ⟨‹_›, ha⟩
      · cases h
  · rintro ⟨hu, hs⟩
    simp [decodeAlias, foldlM_decodeStep_of_spells hs, hu, bind, Except.bind, pure, Except.pure]

/-- A name that escapes a byte of `'0'..='~'` decodes to the alias whose file name writes the
byte as itself: `"+\x60"` and `"0"` both decode to `"0"`. -/
theorem decodeAlias_accepts_escaped_printable :
    decodeAlias [0x2B, 0x60] = .ok [0x30] ∧ encodeAlias [0x30] ≠ [0x2B, 0x60] := by
  decide

/-- `encode_alias` writes the shortest spelling of an alias. -/
theorem Spells.length_encodeAlias_le {a t : Bytes} (h : Spells a t) :
    (encodeAlias a).length ≤ t.length := by
  induction h with
  | nil => exact Nat.le_refl 0
  | literal hc _ ih =>
    rw [encodeAlias_cons, if_pos hc]
    simpa using ih
  | @escape c a t _ ih =>
    rw [encodeAlias_cons]
    split <;> simp [escapePair] <;> omega

/-- It is the only shortest spelling: the canonical names are the shortest ones. -/
theorem Spells.eq_encodeAlias_of_length_le {a t : Bytes} (h : Spells a t)
    (hl : t.length ≤ (encodeAlias a).length) : t = encodeAlias a := by
  induction h with
  | nil => rfl
  | @literal c a t hc _ ih =>
    rw [encodeAlias_cons, if_pos hc] at hl ⊢
    simp only [List.length_cons, List.singleton_append] at hl ⊢
    rw [ih (by omega)]
  | @escape c a t ha ih =>
    rw [encodeAlias_cons] at hl ⊢
    split at hl
    · -- an escaped byte of '0'..='~' makes the name longer than the canonical one
      have := ha.length_encodeAlias_le
      simp [escapePair] at hl
      omega
    · next hc =>
      rw [if_neg hc]
      simp only [escapePair, List.length_append, List.length_cons, List.length_nil] at hl ⊢
      rw [ih (by omega)]

end Alias

/-- The loop of `list_legacy_keystore_entries_for_uid` over the names of the directory. -/
def listEntries (uidStr : Bytes) : List Bytes → Option (Except LegacyError (List Bytes))
  | [] => some (pure [])
  | f :: fs =>
    if utf8Valid f then
      match sliceFrom f (uidStr.length + 1) with
      | none => none
      | some encodedAlias =>
        if uidStr.isPrefixOf f && !isKeystoreAlias encodedAlias then
          match decodeAlias encodedAlias with
          | .ok decoded => (listEntries uidStr fs).map (·.map (decoded :: ·))
          | .error e => some (.error e)
        else listEntries uidStr fs
    else listEntries uidStr fs

/-- `list_legacy_keystore_entries_for_uid`, over the names in the directory `user_<user id>`,
`none` if it does not exist. -/
def listLegacyKeystoreEntriesForUid (uid : UInt32) (dir : Option (List Bytes)) :
    Option (Except LegacyError (List Bytes)) :=
  match dir with
  | none => some (pure [])
  | some names => listEntries (uidString uid) names

section Listing

theorem le_of_mem_uidString {uid : UInt32} {b : UInt8} (hb : b ∈ uidString uid) : b ≤ 0x7F := by
  obtain ⟨c, hc, rfl⟩ := List.mem_map.mp hb
  have hdigit := Nat.isDigit_of_mem_toDigits (by decide) (by decide) hc
  have hle : c.toNat ≤ 57 := by
    simp only [Char.isDigit, Bool.and_eq_true, decide_eq_true_eq] at hdigit
    exact hdigit.2
  -- the byte of a digit is its code, below 0x80
  rw [UInt8.le_iff_toNat_le, Nat.toUInt8_eq, UInt8.toNat_ofNat']
  simp only [Nat.reducePow, UInt8.reduceToNat]
  omega

/-- No known keystore prefix starts with `'_'`. -/
theorem isKeystoreAlias_underscore (rest : Bytes) : isKeystoreAlias (0x5F :: rest) = false := by
  have hhead : ∀ pre ∈ knownKeystorePrefixes, pre ≠ [] ∧ pre.head? ≠ some 0x5F := by
    decide
  simp only [isKeystoreAlias, List.any_eq_false]
  intro pre hpre
  obtain ⟨hne, hb⟩ := hhead pre hpre
  cases pre with
  | nil => exact absurd rfl hne
  | cons b bs => simp_all [List.isPrefixOf]

/-- A UTF-8 name too short to hold the uid and a separator makes the listing panic: the slice
comes before the test of the prefix. -/
theorem listEntries_short {uidStr f : Bytes} (fs : List Bytes) (hf : utf8Valid f = true)
    (hshort : f.length < uidStr.length + 1) : listEntries uidStr (f :: fs) = none := by
  have hslice : sliceFrom f (uidStr.length + 1) = none := by
    have hnone : f[uidStr.length + 1]? = none := List.getElem?_eq_none (by omega)
    have hcond : (uidStr.length + 1 == 0 || uidStr.length + 1 == f.length) = false := by
      simp only [Bool.or_eq_false_iff, beq_eq_false_iff_ne]
      omega
    simp only [sliceFrom, isCharBoundary, hnone]
    rw [hcond]
    rfl
  simp [listEntries, hf, hslice]

/-- The file of the uid whose decimal string is this uid's followed by one more digit is listed,
with a `'_'` before its alias: the test of the prefix does not look for the separator. -/
theorem listEntries_longer_uid {uidStr a : Bytes} {d : UInt8} (huid : ∀ b ∈ uidStr, b ≤ 0x7F)
    (hd : d ≤ 0x7F) (ha : utf8Valid a = true) :
    listEntries uidStr [uidStr ++ d :: 0x5F :: encodeAlias a] = some (.ok [0x5F :: a]) := by
  have hvalid : utf8Valid (uidStr ++ d :: 0x5F :: encodeAlias a) = true := by
    apply utf8Valid_of_forall_le
    intro b hb
    simp only [List.mem_append, List.mem_cons] at hb
    rcases hb with hb | rfl | rfl | hb
    · exact huid b hb
    · exact hd
    · decide
    · exact le_of_mem_encodeAlias hb
  have hslice : sliceFrom (uidStr ++ d :: 0x5F :: encodeAlias a) (uidStr.length + 1) =
      some (0x5F :: encodeAlias a) := by
    have hdrop : (uidStr ++ d :: 0x5F :: encodeAlias a).drop (uidStr.length + 1) =
        0x5F :: encodeAlias a := by
      rw [List.drop_append, List.drop_eq_nil_of_le (by omega)]
      simp
    simp [sliceFrom, isCharBoundary, hdrop]
  have hprefix : uidStr.isPrefixOf (uidStr ++ d :: 0x5F :: encodeAlias a) = true :=
    List.isPrefixOf_iff_prefix.mpr (List.prefix_append _ _)
  have hdecode : decodeAlias (0x5F :: encodeAlias a) = .ok (0x5F :: a) := by
    have hfold : (0x5F :: encodeAlias a).foldlM decodeStep (none, []) = .ok (none, 0x5F :: a) := by
      rw [List.foldlM_cons]
      show (encodeAlias a).foldlM decodeStep (none, [0x5F]) = _
      rw [foldlM_decodeStep_encodeAlias]
      rfl
    simp [decodeAlias, hfold, utf8Valid_cons_of_le (show (0x5F : UInt8) ≤ 0x7F by decide), ha,
      bind, Except.bind, pure, Except.pure]
  simp [listEntries, hvalid, hslice, hprefix, isKeystoreAlias_underscore, hdecode, pure,
    Except.pure, Except.map]

theorem listLegacyKeystoreEntriesForUid_misreports (uid : UInt32) {d : UInt8}
    (hd : 0x30 ≤ d ∧ d ≤ 0x39) {a f : Bytes} (ha : utf8Valid a = true) (hf : utf8Valid f = true)
    (hshort : f.length ≤ (uidString uid).length) :
    listLegacyKeystoreEntriesForUid uid (some [uidString uid ++ d :: 0x5F :: encodeAlias a]) =
        some (.ok [0x5F :: a]) ∧
      listLegacyKeystoreEntriesForUid uid (some [f]) = none := by
  have hascii : d ≤ 0x7F := UInt8.le_trans hd.2 (show (0x39 : UInt8) ≤ 0x7F by decide)
  exact ⟨listEntries_longer_uid (fun _ => le_of_mem_uidString) hascii ha,
    listEntries_short [] hf (by omega)⟩

/-- The listing of uid 1000 reports the file `10001_x` of uid 10001 as its alias `_x`, and
panics on the name `a`. -/
theorem listLegacyKeystoreEntriesForUid_misreports_1000 :
    listLegacyKeystoreEntriesForUid 1000
        (some [uidString 1000 ++ 0x31 :: 0x5F :: encodeAlias (ascii "x")]) =
        some (.ok [0x5F :: ascii "x"]) ∧
      listLegacyKeystoreEntriesForUid 1000 (some [ascii "a"]) = none :=
  listLegacyKeystoreEntriesForUid_misreports 1000 (by decide) (by decide) (by decide) (by decide)

example : uidString 1000 ++ 0x31 :: 0x5F :: encodeAlias (ascii "x") = ascii "10001_x" := by
  decide

end Listing

/-! ## Entry files -/

/-- `AID_USER_OFFSET`. -/
def aidUserOffset : UInt32 := 100000

/-- `uid_to_android_user`. -/
def uidToAndroidUser (uid : UInt32) : UInt32 := uid / aidUserOffset

/-- A file of the legacy database: its directory `user_<user id>`, its name, and the entry that
`read_legacy_keystore_entry` decrypts from it with the user's `AfterFirstUnlock` key. -/
structure LegacyFile where
  userId : UInt32
  name : Bytes
  entry : Bytes
  deriving DecidableEq, Repr

/-- The names in the directory `user_<user id>`. -/
def userDir (files : List LegacyFile) (userId : UInt32) : List Bytes :=
  (files.filter (·.userId = userId)).map (·.name)

/-- `make_legacy_keystore_entry_filename`: the directory and name of the file of an entry,
none for an alias with a known keystore prefix. -/
def makeLegacyKeystoreEntryFilename (uid : UInt32) (entryAlias : Bytes) : Option (UInt32 × Bytes) :=
  if isKeystoreAlias entryAlias then none
  else some (uidToAndroidUser uid, uidString uid ++ 0x5F :: encodeAlias entryAlias)

/-- Whether a file is the one at `path`. -/
def LegacyFile.isAt (f : LegacyFile) (path : UInt32 × Bytes) : Bool :=
  f.userId = path.1 && f.name = path.2

/-- `read_legacy_keystore_entry`: the entry in the file of the alias, if there is one. -/
def readLegacyKeystoreEntry (files : List LegacyFile) (uid : UInt32) (entryAlias : Bytes) :
    Option Bytes :=
  match makeLegacyKeystoreEntryFilename uid entryAlias with
  | none => none
  | some path => (files.find? (·.isAt path)).map (·.entry)

/-- `remove_legacy_keystore_entry`: the files left, and whether the file of the alias was
there.  An emptied user directory is removed, which no listing tells from a missing one. -/
def removeLegacyKeystoreEntry (files : List LegacyFile) (uid : UInt32) (entryAlias : Bytes) :
    List LegacyFile × Bool :=
  match makeLegacyKeystoreEntryFilename uid entryAlias with
  | none => (files, false)
  | some path =>
    if files.any (·.isAt path) then (files.filter (!·.isAt path), true) else (files, false)

/-- `str::parse::<u32>`: an optional `+`, then at least one decimal digit, below `2^32`. -/
def parseU32 (s : Bytes) : Option UInt32 :=
  let digits := match s with
    | 0x2B :: rest => rest
    | _ => s
  if digits ≠ [] ∧ digits.all (fun b => 0x30 ≤ b && b ≤ 0x39) then
    let n := digits.foldl (fun acc b => 10 * acc + (b - 0x30).toNat) 0
    if n < 2 ^ 32 then some (UInt32.ofNat n) else none
  else none

/-- `extract_legacy_alias`. -/
def extractLegacyAlias (encodedAlias : Bytes) : Option Bytes :=
  if isKeystoreAlias encodedAlias then none
  else
    match decodeAlias encodedAlias with
    | .ok decoded => some decoded
    | .error _ => none

/-- `list_legacy_keystore_entries_for_user`, over the names of the directory: the uid and the
alias of each UTF-8 name `<uid>_<encoded alias>`.  The source collects them in a map of sets;
only their membership is read. -/
def listLegacyKeystoreEntriesForUser (names : List Bytes) : List (UInt32 × Bytes) :=
  (names.filter utf8Valid).filterMap fun v =>
    match v.idxOf? 0x5F with
    | none => none
    | some sepPos => do
      let uid ← parseU32 (v.take sepPos)
      let decoded ← extractLegacyAlias (v.drop (sepPos + 1))
      pure (uid, decoded)

end Keystore2.LegacyBlob
