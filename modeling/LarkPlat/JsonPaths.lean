import LarkPlat.Json

/-!
# Places in JSON Values

A place in a JSON value is a path: a list of keys and indices that lead to it from the root. What
holds of every string at every place, whatever the shape of the value, is said about paths and
proved by recursion on them.

## Main results

* `Json.follow_append`: a path is followed step by step.
* `Json.proper_of_distinctKeys`: that the keys of every dictionary in a value are distinct, as those
  of Python's are, can be checked.
* `Json.mem_strings_of_follow`: the strings of a value with their paths.
-/

namespace LarkPlat

/-- A step to a part of a value. -/
inductive PathStep where
  | key (k : String)
  | item (i : ℕ)
  deriving DecidableEq

namespace Json

/-- The part of a value that a step leads to. -/
def child : Json → PathStep → Option Json
  | obj fields, .key k => fields.lookup k
  | arr items, .item i => items[i]?
  | _, _ => none

/-- The part of a value at a path. -/
def follow : Json → List PathStep → Option Json
  | v, [] => some v
  | v, s :: path => (v.child s).bind fun w => w.follow path

@[simp] theorem follow_nil (v : Json) : v.follow [] = some v := rfl

theorem follow_cons (v : Json) (s : PathStep) (path : List PathStep) :
    v.follow (s :: path) = (v.child s).bind fun w => w.follow path := rfl

@[simp] theorem follow_obj_key (fields : List (String × Json)) (k : String)
    (path : List PathStep) :
    (obj fields).follow (.key k :: path) = (fields.lookup k).bind fun w => w.follow path := rfl

@[simp] theorem follow_arr_item (items : List Json) (i : ℕ) (path : List PathStep) :
    (arr items).follow (.item i :: path) = items[i]?.bind fun w => w.follow path := rfl

@[simp] theorem follow_obj_item (fields : List (String × Json)) (i : ℕ)
    (path : List PathStep) : (obj fields).follow (.item i :: path) = none := rfl

@[simp] theorem follow_arr_key (items : List Json) (k : String) (path : List PathStep) :
    (arr items).follow (.key k :: path) = none := rfl

theorem follow_append (v : Json) (path rest : List PathStep) :
    v.follow (path ++ rest) = (v.follow path).bind fun w => w.follow rest := by
  induction path generalizing v with
  | nil => rfl
  | cons s path ih =>
      rw [List.cons_append, follow_cons, follow_cons]
      cases v.child s with
      | none => rfl
      | some w => exact ih w

theorem follow_snoc_key (v : Json) (path : List PathStep) (k : String) :
    v.follow (path ++ [.key k]) = (v.follow path).bind fun w => w.child (.key k) := by
  rw [follow_append]
  cases v.follow path with
  | none => rfl
  | some w =>
      rw [Option.bind_some, Option.bind_some, follow_cons]
      cases w.child (.key k) <;> rfl

/-- The keys of each dictionary in the value are distinct. -/
def Proper (v : Json) : Prop :=
  ∀ path fields, v.follow path = some (obj fields) → (fields.map Prod.fst).Nodup

theorem Proper.nodup {fields : List (String × Json)} (h : (obj fields).Proper) :
    (fields.map Prod.fst).Nodup := h [] fields rfl

theorem Proper.child {v w : Json} {s : PathStep} (h : v.Proper) (hw : v.child s = some w) :
    w.Proper := by
  intro path fields hpath
  exact h (s :: path) fields (by rw [follow_cons, hw, Option.bind_some, hpath])

/-! ### Checking the keys -/

mutual

/-- The keys of each dictionary in the value are distinct, by recursion on the value. -/
def distinctKeys : Json → Bool
  | obj fields => decide (fields.map Prod.fst).Nodup && distinctFields fields
  | arr items => distinctItems items
  | _ => true

/-- The values of a dictionary have distinct keys. -/
def distinctFields : List (String × Json) → Bool
  | [] => true
  | (_, v) :: fields => distinctKeys v && distinctFields fields

/-- The items of a list have distinct keys. -/
def distinctItems : List Json → Bool
  | [] => true
  | v :: items => distinctKeys v && distinctItems items

end

theorem distinctFields_lookup {fields : List (String × Json)} {k : String} {v : Json}
    (h : distinctFields fields = true) (hv : fields.lookup k = some v) :
    distinctKeys v = true := by
  induction fields with
  | nil => cases hv
  | cons p fields ih =>
      obtain ⟨l, w⟩ := p
      rw [distinctFields, Bool.and_eq_true] at h
      rw [List.lookup_cons] at hv
      cases hk : k == l with
      | true =>
          rw [hk, Option.some.injEq] at hv
          exact hv ▸ h.1
      | false =>
          rw [hk] at hv
          exact ih h.2 hv

theorem distinctItems_getElem? {items : List Json} {i : ℕ} {v : Json}
    (h : distinctItems items = true) (hv : items[i]? = some v) : distinctKeys v = true := by
  induction items generalizing i with
  | nil => simp at hv
  | cons w items ih =>
      rw [distinctItems, Bool.and_eq_true] at h
      cases i with
      | zero =>
          rw [List.getElem?_cons_zero, Option.some.injEq] at hv
          exact hv ▸ h.1
      | succ i =>
          rw [List.getElem?_cons_succ] at hv
          exact ih h.2 hv

theorem distinctKeys_child {v w : Json} {s : PathStep} (h : distinctKeys v = true)
    (hw : v.child s = some w) : distinctKeys w = true := by
  cases v with
  | obj fields =>
      cases s with
      | key k =>
          rw [distinctKeys, Bool.and_eq_true] at h
          exact distinctFields_lookup h.2 hw
      | item i => cases hw
  | arr items =>
      cases s with
      | key k => cases hw
      | item i =>
          rw [distinctKeys] at h
          exact distinctItems_getElem? h hw
  | _ => cases s <;> cases hw

/-- The check decides for every path. -/
theorem proper_of_distinctKeys {v : Json} (h : distinctKeys v = true) : v.Proper := by
  intro path
  induction path generalizing v with
  | nil =>
      rintro fields hv
      obtain rfl := Option.some.inj hv
      rw [distinctKeys, Bool.and_eq_true] at h
      exact of_decide_eq_true h.1
  | cons s path ih =>
      rintro fields hv
      rw [follow_cons] at hv
      obtain ⟨w, hw, hrest⟩ := Option.bind_eq_some_iff.mp hv
      exact ih (distinctKeys_child h hw) fields hrest

/-! ### Dictionaries -/

theorem lookup_setField_ne {fields : List (String × Json)} {k k' : String} (v : Json)
    (h : k' ≠ k) : (setField fields k v).lookup k' = fields.lookup k' := by
  have hk : (k' == k) = false := beq_false_of_ne h
  induction fields with
  | nil => simp [setField, List.lookup_cons, hk]
  | cons p fields ih =>
      obtain ⟨l, w⟩ := p
      rw [setField]
      by_cases hl : l = k
      · rw [if_pos hl, List.lookup_cons, List.lookup_cons, hl, hk]
      · rw [if_neg hl, List.lookup_cons, List.lookup_cons, ih]

theorem setField_of_not_mem {fields : List (String × Json)} {k : String} (v : Json)
    (h : k ∉ fields.map Prod.fst) : setField fields k v = fields ++ [(k, v)] := by
  induction fields with
  | nil => rfl
  | cons p fields ih =>
      obtain ⟨l, w⟩ := p
      simp only [List.map_cons, List.mem_cons, not_or] at h
      rw [setField, if_neg (Ne.symm h.1), ih h.2]
      rfl

theorem lookup_eq_none_of_not_mem {fields : List (String × Json)} {k : String}
    (h : k ∉ fields.map Prod.fst) : fields.lookup k = none := by
  induction fields with
  | nil => rfl
  | cons p fields ih =>
      simp only [List.map_cons, List.mem_cons, not_or] at h
      have hk : (k == p.1) = false := beq_false_of_ne h.1
      rw [List.lookup_cons, hk, ih h.2]

/-! ### The strings of a value -/

mutual

/-- The strings in a value, with their paths. -/
def strings : Json → List (List PathStep × String)
  | str s => [([], s)]
  | obj fields => stringsOfFields fields
  | arr items => stringsOfItems 0 items
  | _ => []

/-- The strings in a dictionary. -/
def stringsOfFields : List (String × Json) → List (List PathStep × String)
  | [] => []
  | (k, v) :: fields =>
      (strings v).map (fun p => (.key k :: p.1, p.2)) ++ stringsOfFields fields

/-- The strings in a list, whose first index is given. -/
def stringsOfItems (i : ℕ) : List Json → List (List PathStep × String)
  | [] => []
  | v :: items => (strings v).map (fun p => (.item i :: p.1, p.2)) ++ stringsOfItems (i + 1) items

end

theorem mem_stringsOfFields {fields : List (String × Json)} {k : String} {v : Json}
    {path : List PathStep} {s : String} (hv : fields.lookup k = some v)
    (h : (path, s) ∈ v.strings) : (PathStep.key k :: path, s) ∈ stringsOfFields fields := by
  induction fields with
  | nil => cases hv
  | cons p fields ih =>
      obtain ⟨l, w⟩ := p
      rw [stringsOfFields, List.mem_append]
      rw [List.lookup_cons] at hv
      cases hk : k == l with
      | true =>
          rw [hk, Option.some.injEq] at hv
          obtain rfl : k = l := eq_of_beq hk
          subst hv
          exact .inl (List.mem_map_of_mem h)
      | false =>
          rw [hk] at hv
          exact .inr (ih hv)

theorem mem_stringsOfItems {items : List Json} {i j : ℕ} {v : Json} {path : List PathStep}
    {s : String} (hv : items[i]? = some v) (h : (path, s) ∈ v.strings) :
    (PathStep.item (j + i) :: path, s) ∈ stringsOfItems j items := by
  induction items generalizing i j with
  | nil => simp at hv
  | cons w items ih =>
      rw [stringsOfItems, List.mem_append]
      cases i with
      | zero =>
          rw [List.getElem?_cons_zero, Option.some.injEq] at hv
          subst hv
          exact .inl (List.mem_map_of_mem h)
      | succ i =>
          rw [List.getElem?_cons_succ] at hv
          have := ih (j := j + 1) hv
          rw [Nat.add_assoc, Nat.add_comm 1] at this
          exact .inr this

/-- The strings that a path leads to are among them. -/
theorem mem_strings_of_follow {v : Json} {path : List PathStep} {s : String}
    (h : v.follow path = some (str s)) : (path, s) ∈ v.strings := by
  induction path generalizing v with
  | nil =>
      obtain rfl := Option.some.inj h
      exact List.mem_singleton.mpr rfl
  | cons step path ih =>
      rw [follow_cons] at h
      obtain ⟨w, hw, hrest⟩ := Option.bind_eq_some_iff.mp h
      cases v with
      | obj fields =>
          cases step with
          | key k => exact mem_stringsOfFields hw (ih hrest)
          | item i => cases hw
      | arr items =>
          cases step with
          | key k => cases hw
          | item i =>
              have := mem_stringsOfItems (j := 0) hw (ih hrest)
              rwa [Nat.zero_add] at this
      | _ => cases step <;> cases hw

end Json

/-- A dictionary whose keys are distinct, as are those of the dictionaries in it. -/
structure JsonDict where
  fields : List (String × Json)
  distinct : (Json.obj fields).distinctKeys = true

theorem JsonDict.proper (d : JsonDict) : (Json.obj d.fields).Proper :=
  Json.proper_of_distinctKeys d.distinct

end LarkPlat
