import Mathlib.Data.List.Basic
import Mathlib.Order.Basic

/-!
# Keys that Expire

A store of keys, each with a value and the time up to which it is kept, as Redis keeps them: a write
of a key replaces its value and its time, and a key whose time has passed is not found.

## Main results

* `get_setex_self`, `get_setex_ne`, `get_delete_self`, `get_delete_ne`: what a write leaves to read.
-/

namespace LarkPlat.ExpiringKeys

/-- A key with its value, and the last time at which it is found. -/
structure Entry (κ ν τ : Type) where
  key : κ
  value : ν
  expiresAt : τ

variable {κ ν τ : Type} [DecidableEq κ]

/-- Remove a key. -/
def delete (rows : List (Entry κ ν τ)) (k : κ) : List (Entry κ ν τ) :=
  rows.filter fun e => decide (e.key ≠ k)

/-- Write a key, to be kept up to a time. -/
def setex (rows : List (Entry κ ν τ)) (k : κ) (v : ν) (t : τ) : List (Entry κ ν τ) :=
  delete rows k ++ [⟨k, v, t⟩]

section Find

variable {rows : List (Entry κ ν τ)} {k k' : κ} {v : ν} {t : τ}

theorem find_delete_self : (delete rows k).find? (fun e => decide (e.key = k)) = none :=
  List.find?_eq_none.mpr fun e he => by simpa using (List.mem_filter.mp he).2

theorem find_setex_self :
    (setex rows k v t).find? (fun e => decide (e.key = k)) = some ⟨k, v, t⟩ := by
  rw [setex, List.find?_append, find_delete_self, Option.none_or,
    List.find?_cons_of_pos (by simp)]

theorem find_delete_ne (h : k' ≠ k) : (delete rows k').find? (fun e => decide (e.key = k)) =
    rows.find? fun e => decide (e.key = k) := by
  rw [delete, List.find?_filter]
  congr 1
  funext e
  by_cases he : e.key = k
  · simp [he, h.symm]
  · simp [he]

theorem find_setex_ne (h : k' ≠ k) : (setex rows k' v t).find? (fun e => decide (e.key = k)) =
    rows.find? fun e => decide (e.key = k) := by
  rw [setex, List.find?_append, find_delete_ne h, List.find?_cons_of_neg (by simpa using h),
    List.find?_nil, Option.or_none]

end Find

variable [LE τ] [DecidableLE τ] {rows : List (Entry κ ν τ)} {k k' : κ} {v w : ν} {t now : τ}

/-- The value of a key, if its time has not passed. -/
def get (rows : List (Entry κ ν τ)) (k : κ) (now : τ) : Option ν :=
  ((rows.find? fun e => decide (e.key = k)).filter fun e => decide (now ≤ e.expiresAt)).map
    Entry.value

@[simp] theorem get_nil : get ([] : List (Entry κ ν τ)) k now = none := rfl

theorem get_setex_self : get (setex rows k v t) k now = if now ≤ t then some v else none := by
  rw [get, find_setex_self, Option.filter]
  split_ifs <;> simp_all

theorem get_setex_ne (h : k' ≠ k) : get (setex rows k' v t) k now = get rows k now := by
  rw [get, find_setex_ne h, get]

theorem get_delete_self : get (delete rows k) k now = none := by
  rw [get, find_delete_self, Option.filter_none, Option.map_none]

theorem get_delete_ne (h : k' ≠ k) : get (delete rows k') k now = get rows k now := by
  rw [get, find_delete_ne h, get]

end LarkPlat.ExpiringKeys
