import Mathlib.Data.Rat.Defs
import Mathlib.Data.List.Basic
import Mathlib.Algebra.Order.Ring.Unbundled.Rat
import Mathlib.Algebra.Group.Nat.Defs
import Mathlib.Data.List.Infix

/-!
# Python Values from JSON

The services read their payloads and their JSONB columns as Python objects built from
JSON: `None`, booleans, integers, floats, strings, lists and dictionaries. `Json` is the
type of these objects; a float is represented by the rational it denotes. The reading
operations follow Python: `get` is `dict.get`, `truthy` the truth value used by `if x` and
`x or y`, `toInt` and `toFloat` the constructors `int(x)` and `float(x)`.

An operation that Python aborts with an exception returns an `Except PyErr` value, where
`PyErr` lists the exception classes the services raise or let through.
-/

namespace LarkPlat

/-- The exceptions that a modelled function can raise: the service errors of
`app.core.exceptions` with their messages, and the built-in ones that escape. -/
inductive PyErr
  | validation (msg : String)
  | badRequest (msg : String)
  | conflict (msg : String)
  | notFound (msg : String)
  | forbidden (msg : String)
  | unauthorized (msg : String)
  | rateLimit (msg : String)
  | typeError
  | valueError
  | attributeError
  | keyError
  | recursionError
  | integrityError
  deriving DecidableEq, Repr

@[simp] theorem throw_ne_ok {α : Type*} (e : PyErr) (a : α) :
    (throw e : Except PyErr α) ≠ .ok a := by
  intro h
  cases h

@[simp] theorem throw_bind_ne_ok {α β : Type} (e : PyErr) (f : α → Except PyErr β) (b : β) :
    ((throw e : Except PyErr α) >>= f) ≠ .ok b := by
  intro h
  cases h

/-- A sequence of calls returns exactly when the first one does and the rest does on its
value. -/
theorem bind_eq_ok {α β : Type} {x : Except PyErr α} {f : α → Except PyErr β} {b : β} :
    (x >>= f) = .ok b ↔ ∃ a, x = .ok a ∧ f a = .ok b := by
  cases x with
  | error e => simp [bind, Except.bind]
  | ok a => simp [bind, Except.bind]

/-- A Python value read from JSON. Dictionaries keep their insertion order. -/
inductive Json
  | null
  | bool (b : Bool)
  | int (n : ℤ)
  | float (q : ℚ)
  | str (s : String)
  | arr (items : List Json)
  | obj (fields : List (String × Json))

namespace Json

mutual

/-- Equality of JSON values is decidable, by recursion on the first value. -/
def decEq : (a b : Json) → Decidable (a = b)
  | null, b => by
      cases b <;> first | exact isTrue rfl | exact isFalse (fun h => nomatch h)
  | bool x, b => by
      cases b with
      | bool y => exact decidable_of_iff (x = y) (by simp)
      | _ => exact isFalse (fun h => nomatch h)
  | int x, b => by
      cases b with
      | int y => exact decidable_of_iff (x = y) (by simp)
      | _ => exact isFalse (fun h => nomatch h)
  | float x, b => by
      cases b with
      | float y => exact decidable_of_iff (x = y) (by simp)
      | _ => exact isFalse (fun h => nomatch h)
  | str x, b => by
      cases b with
      | str y => exact decidable_of_iff (x = y) (by simp)
      | _ => exact isFalse (fun h => nomatch h)
  | arr xs, b => by
      cases b with
      | arr ys =>
          exact @decidable_of_iff _ (xs = ys) (by simp) (decEqItems xs ys)
      | _ => exact isFalse (fun h => nomatch h)
  | obj xs, b => by
      cases b with
      | obj ys =>
          exact @decidable_of_iff _ (xs = ys) (by simp) (decEqFields xs ys)
      | _ => exact isFalse (fun h => nomatch h)

/-- Equality of lists of JSON values. -/
def decEqItems : (xs ys : List Json) → Decidable (xs = ys)
  | [], [] => isTrue rfl
  | [], _ :: _ => isFalse (fun h => nomatch h)
  | _ :: _, [] => isFalse (fun h => nomatch h)
  | x :: xs, y :: ys =>
      match decEq x y, decEqItems xs ys with
      | isTrue hx, isTrue hs => isTrue (by rw [hx, hs])
      | isFalse hx, _ => isFalse (by simp [hx])
      | _, isFalse hs => isFalse (by simp [hs])

/-- Equality of dictionaries, field by field. -/
def decEqFields : (xs ys : List (String × Json)) → Decidable (xs = ys)
  | [], [] => isTrue rfl
  | [], _ :: _ => isFalse (fun h => nomatch h)
  | _ :: _, [] => isFalse (fun h => nomatch h)
  | (k, x) :: xs, (l, y) :: ys =>
      match decEq x y, decEqFields xs ys with
      | isTrue hx, isTrue hs =>
          if hk : k = l then isTrue (by rw [hk, hx, hs]) else isFalse (by simp [hk])
      | isFalse hx, _ => isFalse (by simp [hx])
      | _, isFalse hs => isFalse (by simp [hs])

end

instance : DecidableEq Json := decEq

/-! ### Reading values -/

/-- Python's truth value: `None`, `False`, zero and the empty string, list and dictionary
are false. -/
def truthy : Json → Bool
  | null => false
  | bool b => b
  | int n => decide (n ≠ 0)
  | float q => decide (q ≠ 0)
  | str s => decide (s ≠ "")
  | arr items => !items.isEmpty
  | obj fields => !fields.isEmpty

/-- `a or b`. -/
def pyOr (a b : Json) : Json :=
  if a.truthy then a else b

/-- `d.get(k)` on a dictionary: the field, or `None`. -/
def field (fields : List (String × Json)) (k : String) : Json :=
  (fields.lookup k).getD null

/-- `x.get(k)`: only dictionaries have the method. -/
def get : Json → String → Except PyErr Json
  | obj fields, k => .ok (field fields k)
  | _, _ => .error .attributeError

/-- `k in x` for a string `k`: key of a dictionary, element of a list, substring of a
string; numbers, booleans and `None` are not containers. -/
def contains : Json → String → Except PyErr Bool
  | obj fields, k => .ok (fields.lookup k).isSome
  | arr items, k => .ok (decide (str k ∈ items))
  | str s, k => .ok (decide (k.toList <:+: s.toList))
  | _, _ => .error .typeError

/-- `x[k]` for a string `k`. -/
def index : Json → String → Except PyErr Json
  | obj fields, k => (fields.lookup k).elim (.error .keyError) .ok
  | _, _ => .error .typeError

/-- `d[k] = v`: the field is replaced in place, or appended. -/
def setField : List (String × Json) → String → Json → List (String × Json)
  | [], k, v => [(k, v)]
  | (l, w) :: fields, k, v =>
      if l = k then (k, v) :: fields else (l, w) :: setField fields k v

theorem lookup_setField_self (fields : List (String × Json)) (k : String) (v : Json) :
    (setField fields k v).lookup k = some v := by
  induction fields with
  | nil => simp [setField]
  | cons p fields ih =>
      obtain ⟨l, w⟩ := p
      by_cases h : l = k
      · simp [setField, h]
      · have hb : (k == l) = false := beq_false_of_ne (Ne.symm h)
        simpa [setField, h, List.lookup_cons, hb] using ih

theorem field_setField_ne {fields : List (String × Json)} {k k' : String} (v : Json)
    (h : k' ≠ k) : field (setField fields k v) k' = field fields k' := by
  have hk : (k' == k) = false := beq_false_of_ne h
  induction fields with
  | nil => simp [setField, field, List.lookup_cons, hk]
  | cons p fields ih =>
      obtain ⟨l, w⟩ := p
      rw [field, field] at ih
      rw [field, field, setField]
      by_cases hl : l = k
      · rw [if_pos hl, List.lookup_cons, List.lookup_cons, hl, hk]
      · rw [if_neg hl, List.lookup_cons, List.lookup_cons]
        cases k' == l with
        | true => rfl
        | false => exact ih

/-- The text of a value inside an f-string, for the scalar values. A float is shown by
numerator and denominator, and a container by its kind. -/
def pyStr : Json → String
  | null => "None"
  | bool true => "True"
  | bool false => "False"
  | int n => toString n
  | float q => toString q.num ++ "/" ++ toString q.den
  | str s => s
  | arr _ => "[...]"
  | obj _ => "dict(...)"

/-! ### Numbers -/

/-- The characters that `str.strip` removes. -/
def isSpace (c : Char) : Bool :=
  let n := c.toNat
  decide (0x09 ≤ n ∧ n ≤ 0x0D) || decide (0x1C ≤ n ∧ n ≤ 0x20) ||
    decide (n ∈ [0x85, 0xA0, 0x1680, 0x2028, 0x2029, 0x202F, 0x205F, 0x3000]) ||
    decide (0x2000 ≤ n ∧ n ≤ 0x200A)

/-- `s.strip()`. -/
def strip (cs : List Char) : List Char :=
  ((cs.dropWhile isSpace).reverse.dropWhile isSpace).reverse

/-- A run of decimal digits, with single underscores allowed between digits. -/
def parseDigits : ℕ → Bool → List Char → Option ℕ
  | acc, afterDigit, [] => if afterDigit then some acc else none
  | acc, afterDigit, c :: cs =>
      if c = '_' then
        if afterDigit then parseDigits acc false cs else none
      else if c.isDigit then parseDigits (10 * acc + (c.toNat - 48)) true cs
      else none

/-- Split an optional sign off: `true` for a minus. -/
def splitSign : List Char → Bool × List Char
  | '-' :: cs => (true, cs)
  | '+' :: cs => (false, cs)
  | cs => (false, cs)

/-- `int(s)` for a string of ASCII digits. -/
def parseInt (s : String) : Option ℤ :=
  let (neg, cs) := splitSign (strip s.toList)
  (parseDigits 0 false cs).map fun n => if neg then -(n : ℤ) else n

/-- `int(x)`: floats are truncated toward zero. -/
def toInt : Json → Except PyErr ℤ
  | bool b => .ok (if b then 1 else 0)
  | int n => .ok n
  | float q => .ok (q.num.tdiv q.den)
  | str s => (parseInt s).elim (.error .valueError) .ok
  | _ => .error .typeError

end Json

/-- A Python float: a finite value, an infinity, or a NaN. -/
inductive PyFloat
  | fin (q : ℚ)
  | inf (negative : Bool)
  | nan
  deriving DecidableEq

namespace PyFloat

/-- `q >= f` for a finite `q`; comparisons with a NaN are false. -/
def leFin : PyFloat → ℚ → Bool
  | fin r, q => decide (r ≤ q)
  | inf negative, _ => negative
  | nan, _ => false

/-- The value of an unsigned decimal literal such as `12`, `.5` or `1.5e-3`. -/
def parseDecimal (cs : List Char) : Option ℚ := do
  let mantissa := cs.takeWhile fun c => !(c = 'e' || c = 'E')
  let rest := cs.drop mantissa.length
  let whole := mantissa.takeWhile fun c => !(c = '.')
  let frac := (mantissa.drop whole.length).drop 1
  let w ← if whole.isEmpty && !frac.isEmpty then some 0 else Json.parseDigits 0 false whole
  let f ← if frac.isEmpty then some 0 else Json.parseDigits 0 false frac
  let places := (frac.filter fun c => !(c = '_')).length
  let value : ℚ := w + f / (10 ^ places : ℕ)
  match rest with
  | [] => some value
  | _ :: expo =>
      let (neg, ds) := Json.splitSign expo
      let e ← Json.parseDigits 0 false ds
      some (if neg then value / (10 ^ e : ℕ) else value * (10 ^ e : ℕ))

/-- `float(s)` for a string. -/
def ofString (s : String) : Option PyFloat :=
  let (neg, cs) := Json.splitSign (Json.strip s.toList)
  let word := String.ofList (cs.map Char.toLower)
  if word = "inf" ∨ word = "infinity" then some (inf neg)
  else if word = "nan" then some nan
  else (parseDecimal cs).map fun q => fin (if neg then -q else q)

/-- `float(x)`. -/
def ofJson : Json → Except PyErr PyFloat
  | .bool b => .ok (fin (if b then 1 else 0))
  | .int n => .ok (fin n)
  | .float q => .ok (fin q)
  | .str s => (ofString s).elim (.error .valueError) .ok
  | _ => .error .typeError

end PyFloat

end LarkPlat
