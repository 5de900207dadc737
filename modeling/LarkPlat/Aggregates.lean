import LarkPlat.Alerts
import Mathlib.Algebra.Order.Ring.Rat

/-!
# Sums, Means and Extremes of Floats

The arithmetic that a running summary of values needs, exact on numbers, and with infinities and
`nan` as floats have them. An extreme is a value that no other one exceeds; among values without
`nan` there is one greatest and one least value, and with `nan` the order of arrival decides, as
it does for `max` and `min` of Python.

## Main results

* `mean_append`: the mean with one more value, from the mean and the number of the others.
* `mean_finite`: the mean of numbers is their sum divided by their number.
* `Extreme.append`: the extreme with one more value.
-/

namespace LarkPlat

namespace Num

/-- `a + b`. -/
def add : Num → Num → Num
  | finite a, finite b => finite (a + b)
  | finite _, b => b
  | a, finite _ => a
  | posInf, posInf => posInf
  | negInf, negInf => negInf
  | _, _ => nan

/-- `a * n`. -/
def mulBy (a : Num) (n : ℕ) : Num :=
  match a with
  | finite q => finite (q * n)
  | a => if n = 0 then nan else a

/-- `a / n`, for a positive `n`. -/
def divBy (a : Num) (n : ℕ) : Num :=
  match a with
  | finite q => finite (q / n)
  | a => a

/-- `max(a, b)`. -/
def pyMax (a b : Num) : Num := if lt a b then b else a

/-- `min(a, b)`. -/
def pyMin (a b : Num) : Num := if lt b a then b else a

/-- The sum of the values, in order. -/
def sum (values : List Num) : Num := values.foldl add (finite 0)

/-- The mean of the values. -/
def mean (values : List Num) : Num := divBy (sum values) values.length

/-! ### Means -/

theorem sum_append (values : List Num) (v : Num) : sum (values ++ [v]) = add (sum values) v := by
  rw [sum, List.foldl_append]
  rfl

theorem mulBy_divBy (a : Num) {n : ℕ} (hn : n ≠ 0) : mulBy (divBy a n) n = a := by
  cases a with
  | finite q =>
      have hq : (n : ℚ) ≠ 0 := Nat.cast_ne_zero.mpr hn
      exact congrArg finite (div_mul_cancel₀ q hq)
  | posInf | negInf | nan => exact if_neg hn

theorem mean_singleton (v : Num) : mean [v] = v := by
  cases v with
  | finite q =>
      have hone : (0 + q) / ((1 : ℕ) : ℚ) = q := by rw [zero_add, Nat.cast_one, div_one]
      exact congrArg finite hone
  | posInf | negInf | nan => rfl

/-- **One more value.** -/
theorem mean_append {values : List Num} (hne : values ≠ []) (v : Num) :
    mean (values ++ [v]) =
      divBy (add (mulBy (mean values) values.length) v) (values.length + 1) := by
  have hlen : values.length ≠ 0 := fun h => hne (List.length_eq_zero_iff.mp h)
  rw [mean, mean, mulBy_divBy _ hlen, sum_append, List.length_append, List.length_singleton]

theorem sum_finite (qs : List ℚ) : sum (qs.map finite) = finite qs.sum := by
  have hfold : ∀ (qs : List ℚ) (q : ℚ),
      (qs.map finite).foldl add (finite q) = finite (q + qs.sum) := by
    intro qs
    induction qs with
    | nil => exact fun q => congrArg finite (add_zero q).symm
    | cons x rest ih =>
        intro q
        rw [List.map_cons, List.foldl_cons, List.sum_cons, ← add_assoc]
        exact ih (q + x)
  exact (hfold qs 0).trans (congrArg finite (zero_add _))

/-- The mean of numbers. -/
theorem mean_finite (qs : List ℚ) : mean (qs.map finite) = finite (qs.sum / qs.length) := by
  rw [mean, sum_finite, List.length_map]
  rfl

/-! ### The order -/

theorem lt_self (a : Num) : lt a a = false := by
  cases a with
  | finite q => exact decide_eq_false (lt_irrefl q)
  | posInf | negInf | nan => rfl

theorem lt_of_lt {a b c : Num} (hab : lt a b = true) (hbc : lt b c = true) : lt a c = true := by
  cases a with
  | finite x =>
      cases b with
      | finite y =>
          cases c with
          | finite z =>
              exact decide_eq_true ((of_decide_eq_true hab).trans (of_decide_eq_true hbc))
          | posInf => rfl
          | negInf | nan => cases hbc
      | posInf => cases c <;> cases hbc
      | negInf | nan => cases hab
  | negInf =>
      cases b with
      | finite y =>
          cases c with
          | finite z => rfl
          | posInf => rfl
          | negInf | nan => cases hbc
      | posInf => cases c <;> cases hbc
      | negInf | nan => cases hab
  | posInf | nan => cases b <;> cases hab

end Num

/-! ### Extremes -/

section Extreme

variable {α : Type} {before : α → α → Bool} {m v : α} {values : List α}

/-- The value is one of the values, and it comes before none of them. -/
structure Extreme (before : α → α → Bool) (m : α) (values : List α) : Prop where
  mem : m ∈ values
  last : ∀ v ∈ values, before m v = false

theorem extreme_singleton (before : α → α → Bool) (hirrefl : ∀ a, before a a = false) (v : α) :
    Extreme before v [v] :=
  ⟨List.mem_singleton_self v, fun w hw => by rw [List.mem_singleton.mp hw, hirrefl]⟩

/-- **One more value.** -/
theorem Extreme.append (h : Extreme before m values) (hirrefl : ∀ a, before a a = false)
    (htrans : ∀ a b c, before a b = true → before b c = true → before a c = true) (v : α) :
    Extreme before (if before m v then v else m) (values ++ [v]) := by
  by_cases hv : before m v = true
  · rw [if_pos hv]
    refine ⟨List.mem_append_right _ (List.mem_singleton_self v), fun w hw => ?_⟩
    rcases List.mem_append.mp hw with hw | hw
    · by_contra hc
      have hmw := htrans m v w hv (Bool.not_eq_false _ ▸ hc)
      rw [h.last w hw] at hmw
      cases hmw
    · rw [List.mem_singleton.mp hw, hirrefl]
  · rw [if_neg hv]
    refine ⟨List.mem_append_left _ h.mem, fun w hw => ?_⟩
    rcases List.mem_append.mp hw with hw | hw
    · exact h.last w hw
    · rw [List.mem_singleton.mp hw]
      exact Bool.eq_false_iff.mpr hv

end Extreme

end LarkPlat
