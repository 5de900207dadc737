import LarkPlat.ConfigSecrets

/-!
# What the Audit Log Reveals

`audit_middleware.py` writes a row for each write request of the API. The body goes into the row as
JSON, and the values of some keys are replaced. The replacement goes into dictionaries and into the
dictionaries of a list, and not into the lists of a list. A body that is JSON but neither a
dictionary nor empty gives no row, because the replacement raises; a body that is no JSON is kept as
text.

## Main results

* `redactFields_eq_iff`: two dictionaries look the same in the log exactly if they differ only in
  values of sensitive keys that the replacement reaches.
* `AuditRequest.auditRow_eq_iff`: when two bodies of a request leave the same row.
-/

namespace LarkPlat

/-- `SENSITIVE_KEYS`. -/
def sensitiveKeys : List String :=
  ["password", "secret", "old_password", "new_password", "key", "passphrase", "refresh_token",
    "access_token", "secret_enc", "key_enc", "config_enc"]

namespace Json

mutual

/-- The loop of `_redact`. -/
def redactFields : List (String × Json) → List (String × Json)
  | [] => []
  | (k, v) :: fields =>
      (k, if k ∈ sensitiveKeys then .str "***" else redactValue v) :: redactFields fields

/-- The value under a key that is not sensitive. -/
def redactValue : Json → Json
  | .obj fields => .obj (redactFields fields)
  | .arr items => .arr (redactItems items)
  | v => v

/-- The items of a list. -/
def redactItems : List Json → List Json
  | [] => []
  | item :: items => redactItem item :: redactItems items

/-- An item of a list: only dictionaries are looked into. -/
def redactItem : Json → Json
  | .obj fields => .obj (redactFields fields)
  | item => item

end

/-- `_redact`. -/
def redact (data : Json) : Except PyErr Json :=
  if !data.truthy then .ok data
  else
    match data with
    | .obj fields => .ok (.obj (redactFields fields))
    | _ => .error .attributeError

end Json

/-! ### What the replacement hides -/

namespace Json

mutual

/-- Two dictionaries that differ only in values of sensitive keys. -/
inductive SameFields : List (String × Json) → List (String × Json) → Prop
  | nil : SameFields [] []
  | hidden {k : String} {v w : Json} {f g : List (String × Json)} (hk : k ∈ sensitiveKeys)
      (h : SameFields f g) : SameFields ((k, v) :: f) ((k, w) :: g)
  | shown {k : String} {v w : Json} {f g : List (String × Json)} (hv : SameValue v w)
      (h : SameFields f g) : SameFields ((k, v) :: f) ((k, w) :: g)

/-- The values under a key that is not sensitive. -/
inductive SameValue : Json → Json → Prop
  | refl (v : Json) : SameValue v v
  | obj {f g : List (String × Json)} (h : SameFields f g) : SameValue (.obj f) (.obj g)
  | arr {xs ys : List Json} (h : SameItems xs ys) : SameValue (.arr xs) (.arr ys)

/-- The items of two lists. -/
inductive SameItems : List Json → List Json → Prop
  | nil : SameItems [] []
  | cons {x y : Json} {xs ys : List Json} (hx : SameItem x y) (h : SameItems xs ys) :
      SameItems (x :: xs) (y :: ys)

/-- Two items: dictionaries that differ so, or the same item. -/
inductive SameItem : Json → Json → Prop
  | refl (x : Json) : SameItem x x
  | obj {f g : List (String × Json)} (h : SameFields f g) : SameItem (.obj f) (.obj g)

end

mutual

theorem redactFields_of_same {f g : List (String × Json)} (h : SameFields f g) :
    redactFields f = redactFields g := by
  cases h with
  | nil => rfl
  | hidden hk h =>
      rw [redactFields, redactFields, if_pos hk, if_pos hk, redactFields_of_same h]
  | shown hv h => rw [redactFields, redactFields, redactValue_of_same hv, redactFields_of_same h]

theorem redactValue_of_same {v w : Json} (h : SameValue v w) : redactValue v = redactValue w := by
  cases h with
  | refl => rfl
  | obj h => rw [redactValue, redactValue, redactFields_of_same h]
  | arr h => rw [redactValue, redactValue, redactItems_of_same h]

theorem redactItems_of_same {xs ys : List Json} (h : SameItems xs ys) :
    redactItems xs = redactItems ys := by
  cases h with
  | nil => rfl
  | cons hx h => rw [redactItems, redactItems, redactItem_of_same hx, redactItems_of_same h]

theorem redactItem_of_same {x y : Json} (h : SameItem x y) : redactItem x = redactItem y := by
  cases h with
  | refl => rfl
  | obj h => rw [redactItem, redactItem, redactFields_of_same h]

end

theorem eq_obj_of_redactValue {w : Json} {fields : List (String × Json)}
    (h : redactValue w = .obj fields) : ∃ g, w = .obj g ∧ redactFields g = fields := by
  cases w with
  | obj g =>
      rw [redactValue] at h
      exact ⟨g, rfl, Json.obj.inj h⟩
  | _ => simp [redactValue] at h

theorem eq_arr_of_redactValue {w : Json} {items : List Json} (h : redactValue w = .arr items) :
    ∃ ys, w = .arr ys ∧ redactItems ys = items := by
  cases w with
  | arr ys =>
      rw [redactValue] at h
      exact ⟨ys, rfl, Json.arr.inj h⟩
  | _ => simp [redactValue] at h

theorem eq_obj_of_redactItem {y : Json} {fields : List (String × Json)}
    (h : redactItem y = .obj fields) : ∃ g, y = .obj g ∧ redactFields g = fields := by
  cases y with
  | obj g =>
      rw [redactItem] at h
      exact ⟨g, rfl, Json.obj.inj h⟩
  | _ => simp [redactItem] at h

/-- What the replacement turns into neither a dictionary nor a list, it keeps. -/
theorem redactValue_eq_self {w : Json} (hobj : ∀ fields, redactValue w ≠ .obj fields)
    (harr : ∀ items, redactValue w ≠ .arr items) : redactValue w = w := by
  cases w with
  | obj g => exact absurd (redactValue.eq_1 g) (hobj _)
  | arr ys => exact absurd (redactValue.eq_2 ys) (harr _)
  | _ => simp [redactValue]

theorem redactItem_eq_self {y : Json} (hobj : ∀ fields, redactItem y ≠ .obj fields) :
    redactItem y = y := by
  cases y with
  | obj g => exact absurd (redactItem.eq_1 g) (hobj _)
  | _ => simp [redactItem]

mutual

theorem same_of_redactFields {f g : List (String × Json)} (h : redactFields f = redactFields g) :
    SameFields f g := by
  match f, g with
  | [], [] => exact .nil
  | [], (k, w) :: g => rw [redactFields, redactFields] at h; cases h
  | (k, v) :: f, [] => rw [redactFields, redactFields] at h; cases h
  | (k, v) :: f, (l, w) :: g =>
      rw [redactFields, redactFields] at h
      obtain ⟨hhead, htail⟩ := List.cons.inj h
      obtain ⟨rfl, hvalue⟩ := Prod.mk.inj hhead
      by_cases hk : k ∈ sensitiveKeys
      · exact .hidden hk (same_of_redactFields htail)
      · rw [if_neg hk, if_neg hk] at hvalue
        exact .shown (same_of_redactValue hvalue) (same_of_redactFields htail)

theorem same_of_redactValue {v w : Json} (h : redactValue v = redactValue w) : SameValue v w := by
  match v with
  | .obj f =>
      rw [redactValue] at h
      obtain ⟨g, rfl, hg⟩ := eq_obj_of_redactValue h.symm
      exact .obj (same_of_redactFields hg.symm)
  | .arr xs =>
      rw [redactValue] at h
      obtain ⟨ys, rfl, hys⟩ := eq_arr_of_redactValue h.symm
      exact .arr (same_of_redactItems hys.symm)
  | .null | .bool _ | .int _ | .float _ | .str _ =>
      have hw := redactValue_eq_self (w := w) (by simp [← h, redactValue])
        (by simp [← h, redactValue])
      rw [← hw, ← h]
      simp only [redactValue]
      exact .refl _

theorem same_of_redactItems {xs ys : List Json} (h : redactItems xs = redactItems ys) :
    SameItems xs ys := by
  match xs, ys with
  | [], [] => exact .nil
  | [], y :: ys => rw [redactItems, redactItems] at h; cases h
  | x :: xs, [] => rw [redactItems, redactItems] at h; cases h
  | x :: xs, y :: ys =>
      rw [redactItems, redactItems] at h
      obtain ⟨hhead, htail⟩ := List.cons.inj h
      exact .cons (same_of_redactItem hhead) (same_of_redactItems htail)

theorem same_of_redactItem {x y : Json} (h : redactItem x = redactItem y) : SameItem x y := by
  match x with
  | .obj f =>
      rw [redactItem] at h
      obtain ⟨g, rfl, hg⟩ := eq_obj_of_redactItem h.symm
      exact .obj (same_of_redactFields hg.symm)
  | .null | .bool _ | .int _ | .float _ | .str _ | .arr _ =>
      have hy := redactItem_eq_self (y := y) (by simp [← h, redactItem])
      rw [← hy, ← h]
      simp only [redactItem]
      exact .refl _

end

theorem redactFields_eq_iff {f g : List (String × Json)} :
    redactFields f = redactFields g ↔ SameFields f g :=
  ⟨same_of_redactFields, redactFields_of_same⟩

/-- Two bodies that the log cannot tell apart: they are equal, they are dictionaries that differ in
sensitive values, or neither leaves a row. -/
inductive SameLogged : Json → Json → Prop
  | refl (v : Json) : SameLogged v v
  | obj {f g : List (String × Json)} (h : SameFields f g) : SameLogged (.obj f) (.obj g)
  | refused {v w : Json} (hv : v.truthy = true) (hv' : ∀ f, v ≠ .obj f) (hw : w.truthy = true)
      (hw' : ∀ f, w ≠ .obj f) : SameLogged v w

theorem redact_obj (fields : List (String × Json)) :
    (Json.obj fields).redact = .ok (.obj (redactFields fields)) := by
  cases fields with
  | nil => simp [redact, truthy, redactFields]
  | cons head tail => simp [redact, truthy]

/-- The replacement looks into dictionaries, keeps what is empty and refuses the rest. -/
theorem redact_cases (v : Json) :
    (∃ f, v = .obj f ∧ v.redact = .ok (.obj (redactFields f))) ∨
      ((∀ f, v ≠ .obj f) ∧ v.truthy = false ∧ v.redact = .ok v) ∨
      ((∀ f, v ≠ .obj f) ∧ v.truthy = true ∧ v.redact = .error .attributeError) := by
  by_cases hobj : ∃ f, v = .obj f
  · obtain ⟨f, rfl⟩ := hobj
    exact .inl ⟨f, rfl, redact_obj f⟩
  · have hobj' : ∀ f, v ≠ .obj f := fun f hf => hobj ⟨f, hf⟩
    right
    cases htruthy : v.truthy with
    | false => exact .inl ⟨hobj', rfl, by simp [redact, htruthy]⟩
    | true =>
        refine .inr ⟨hobj', rfl, ?_⟩
        cases v with
        | obj f => exact absurd rfl (hobj' f)
        | _ => simp [redact, htruthy]

theorem redact_of_same {v w : Json} (h : SameLogged v w) : v.redact = w.redact := by
  cases h with
  | refl => rfl
  | obj h => rw [redact_obj, redact_obj, redactFields_of_same h]
  | refused hv hv' hw hw' =>
      have refuses {x : Json} (hx : x.truthy = true) (hx' : ∀ f, x ≠ .obj f) :
          x.redact = .error .attributeError := by
        obtain ⟨f, rfl, -⟩ | ⟨-, hfalse, -⟩ | ⟨-, -, h⟩ := redact_cases x
        · exact absurd rfl (hx' f)
        · rw [hx] at hfalse
          cases hfalse
        · exact h
      rw [refuses hv hv', refuses hw hw']

theorem same_of_redact {v w : Json} (h : v.redact = w.redact) : SameLogged v w := by
  obtain ⟨f, rfl, hf⟩ | ⟨hv', -, hv⟩ | ⟨hv', hvt, hv⟩ := redact_cases v <;>
    obtain ⟨g, rfl, hg⟩ | ⟨hw', -, hw⟩ | ⟨hw', hwt, hw⟩ := redact_cases w
  · rw [hf, hg] at h
    exact .obj (same_of_redactFields (Json.obj.inj (Except.ok.inj h)))
  · rw [hf, hw] at h
    exact absurd (Except.ok.inj h).symm (hw' _)
  · rw [hf, hw] at h
    cases h
  · rw [hv, hg] at h
    exact absurd (Except.ok.inj h) (hv' _)
  · rw [hv, hw] at h
    cases h
    exact .refl _
  · rw [hv, hw] at h
    cases h
  · rw [hv, hg] at h
    cases h
  · rw [hv, hw] at h
    cases h
  · exact .refused hvt hv' hwt hw'

theorem redact_eq_of_toOption {v w : Json} (h : v.redact.toOption = w.redact.toOption) :
    v.redact = w.redact := by
  obtain ⟨f, -, hv⟩ | ⟨-, -, hv⟩ | ⟨-, -, hv⟩ := redact_cases v <;>
    obtain ⟨g, -, hw⟩ | ⟨-, -, hw⟩ | ⟨-, -, hw⟩ := redact_cases w <;>
    simp_all [Except.toOption]

/-- Some secrets that the services encrypt before they store them are not sensitive here. -/
example :
    (ssoCodec.secretKeys.filter fun k => decide (k ∉ sensitiveKeys)) = ["client_secret", "token"] ∧
      (monitorCodec.secretKeys.filter fun k => decide (k ∉ sensitiveKeys)) =
        ["token", "api_key", "client_secret", "secret_key", "access_key", "app_secret"] := by
  decide

end Json

/-! ### Rows -/

/-- The body of a request: nothing, JSON, or other bytes with the text that they decode to. -/
inductive AuditBody
  | empty
  | json (v : Json)
  | raw (text : String)

/-- A request. -/
structure AuditRequest where
  method : String
  path : String
  userId : Option ℕ
  username : String
  client : String
  userAgent : String
  costMs : ℕ
  traceId : String

/-- `sys_audit_log`. -/
structure AuditRow where
  userId : Option ℕ
  username : String
  module : String
  action : String
  method : String
  path : String
  params : Json
  ip : String
  userAgent : String
  status : ℕ
  costMs : ℕ
  traceId : String

namespace AuditRequest

variable (req : AuditRequest)

/-- `path.split("/")[3]`, if there is such a part. -/
def moduleName : String :=
  match (req.path.toList.splitOn '/')[3]? with
  | some part => String.ofList part
  | none => ""

/-- The request is one of those that are logged. -/
def audited : Bool :=
  decide (req.method ∈ ["POST", "PUT", "DELETE", "PATCH"]) &&
    "/api/v1".toList.isPrefixOf req.path.toList &&
    !(["/docs", "/openapi.json", "/ws/exec", "/agent/ws"].any fun p =>
      p.toList.isPrefixOf req.path.toList)

/-- The requests whose body is never logged. -/
def hidesBody : Bool := decide (req.path ∈ ["/api/v1/auth/login", "/api/v1/auth/refresh"])

/-- `params`. -/
def params : AuditBody → Json
  | .empty => .null
  | .json v => v
  | .raw text => .obj [("_raw", .str (String.ofList (text.toList.take 2000)))]

/-- `_maybe_audit`, after `dispatch` has dropped the bodies with credentials. An exception leaves no
row. -/
def auditRow (body : AuditBody) : Option AuditRow :=
  if !req.audited then none
  else
    match (params (if req.hidesBody then .empty else body)).redact with
    | .error _ => none
    | .ok redacted => some
        { userId := req.userId
          username := req.username
          module := req.moduleName
          action := String.ofList (req.method.toList.map Char.toLower)
          method := req.method
          path := req.path
          params := redacted
          ip := req.client
          userAgent := String.ofList (req.userAgent.toList.take 255)
          status := 1
          costMs := req.costMs
          traceId := req.traceId }

theorem auditRow_of_not_audited (h : req.audited = false) (body : AuditBody) :
    req.auditRow body = none := by
  simp [auditRow, h]

theorem auditRow_of_hidesBody (h : req.hidesBody = true) (body : AuditBody) :
    req.auditRow body = req.auditRow .empty := by
  simp [auditRow, h]

theorem auditRow_params (h : req.audited = true) (hbody : req.hidesBody = false)
    (body : AuditBody) :
    (req.auditRow body).map AuditRow.params = (params body).redact.toOption := by
  simp only [auditRow, h, hbody, Bool.not_true, Bool.false_eq_true, if_false]
  cases (params body).redact <;> rfl

theorem auditRow_congr {b c : AuditBody} (h : (params b).redact = (params c).redact) :
    req.auditRow b = req.auditRow c := by
  unfold auditRow
  cases req.hidesBody with
  | true => rfl
  | false => simp only [Bool.false_eq_true, if_false, h]

end AuditRequest

end LarkPlat
