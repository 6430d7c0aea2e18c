import Mathlib

/-! Signed machine arithmetic as C and C++ define it.  The sum, difference or product of two
`int32_t` or two `int64_t` values is the mathematical one when it is representable, and an
overflow is undefined behaviour.  A checked operation here returns `none` on overflow, so that
a model of C code can say which operation would go wrong.  `__builtin_mul_overflow` reports the
overflow instead of running into it, so it is the same operation read as a flag. -/

namespace CInt

/-- The `int64_t` of value `z`, when `z` is representable. -/
def toInt64? (z : Int) : Option Int64 :=
  if -2 ^ 63 ≤ z ∧ z < 2 ^ 63 then some (Int64.ofInt z) else none

/-- The `int32_t` of value `z`, when `z` is representable. -/
def toInt32? (z : Int) : Option Int32 :=
  if -2 ^ 31 ≤ z ∧ z < 2 ^ 31 then some (Int32.ofInt z) else none

def sub64 (a b : Int64) : Option Int64 := toInt64? (a.toInt - b.toInt)

def mul64 (a b : Int64) : Option Int64 := toInt64? (a.toInt * b.toInt)

def add32 (a b : Int32) : Option Int32 := toInt32? (a.toInt + b.toInt)

theorem toInt64?_eq_some_iff {z : Int} {x : Int64} :
    toInt64? z = some x ↔ (-2 ^ 63 ≤ z ∧ z < 2 ^ 63) ∧ x.toInt = z := by
  unfold toInt64?
  split
  · rename_i h
    simp only [Option.some.injEq, h, true_and]
    rw [← Int64.toInt_inj, Int64.toInt_ofInt_of_le h.1 h.2, eq_comm]
  · rename_i h
    simp only [reduceCtorEq, false_iff]
    exact fun h' => h h'.1

theorem toInt64?_eq_none_iff {z : Int} : toInt64? z = none ↔ ¬(-2 ^ 63 ≤ z ∧ z < 2 ^ 63) := by
  unfold toInt64?
  split <;> simp_all

theorem toInt32?_eq_some_iff {z : Int} {x : Int32} :
    toInt32? z = some x ↔ (-2 ^ 31 ≤ z ∧ z < 2 ^ 31) ∧ x.toInt = z := by
  unfold toInt32?
  split
  · rename_i h
    simp only [Option.some.injEq, h, true_and]
    rw [← Int32.toInt_inj, Int32.toInt_ofInt_of_le h.1 h.2, eq_comm]
  · rename_i h
    simp only [reduceCtorEq, false_iff]
    exact fun h' => h h'.1

/-- A difference of `int64_t` values overflows exactly when it leaves the 64-bit range. -/
theorem sub64_eq_none_iff {a b : Int64} :
    sub64 a b = none ↔ a.toInt - b.toInt < -2 ^ 63 ∨ 2 ^ 63 ≤ a.toInt - b.toInt := by
  rw [sub64, toInt64?_eq_none_iff]
  omega

theorem sub64_eq_some_iff {a b c : Int64} : sub64 a b = some c ↔ c.toInt = a.toInt - b.toInt := by
  rw [sub64, toInt64?_eq_some_iff]
  have := c.le_toInt
  have := c.toInt_lt
  constructor
  · exact fun h => h.2
  · intro h
    exact ⟨by omega, h⟩

theorem mul64_eq_some_iff {a b c : Int64} : mul64 a b = some c ↔ c.toInt = a.toInt * b.toInt := by
  rw [mul64, toInt64?_eq_some_iff]
  have := c.le_toInt
  have := c.toInt_lt
  constructor
  · exact fun h => h.2
  · intro h
    exact ⟨by omega, h⟩

/-- Adding one to an `int` overflows only at `INT_MAX`; below it the result is one more. -/
theorem add32_one_eq_some_iff {a c : Int32} :
    add32 a 1 = some c ↔ a.toInt < 2 ^ 31 - 1 ∧ c.toInt = a.toInt + 1 := by
  rw [add32, toInt32?_eq_some_iff]
  have := a.le_toInt
  have : (1 : Int32).toInt = 1 := rfl
  constructor
  · rintro ⟨⟨-, hlt⟩, hc⟩
    exact ⟨by omega, by omega⟩
  · rintro ⟨hlt, hc⟩
    exact ⟨⟨by omega, by omega⟩, by omega⟩

theorem add32_one_eq_none_iff {a : Int32} : add32 a 1 = none ↔ a.toInt = 2 ^ 31 - 1 := by
  rw [add32, toInt32?, ite_eq_right_iff]
  have := a.le_toInt
  have := a.toInt_lt
  have : (1 : Int32).toInt = 1 := rfl
  simp only [reduceCtorEq, imp_false]
  omega

end CInt
