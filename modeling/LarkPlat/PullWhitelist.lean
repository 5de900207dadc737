import LarkPlat.Json

/-!
# Paths that May be Pulled

A pull reads a file of a host. Its path must lie within the whitelist, a list of paths of the
configuration. The check is lexical: both sides are normalised and compared as texts.
-/

namespace LarkPlat

/-! ### `posixpath.normpath` -/

/-- The slashes that `normpath` keeps at the start: two stay two, more become one. -/
def initialSlashes (path : List Char) : ℕ :=
  if ['/'].isPrefixOf path then
    if ['/', '/'].isPrefixOf path ∧ ¬ ['/', '/', '/'].isPrefixOf path then 2 else 1
  else 0

/-- The loop body of `normpath`: a component is taken into `new_comps`. -/
def takeComponent (slashes : ℕ) (comps : List (List Char)) (comp : List Char) :
    List (List Char) :=
  if comp = [] ∨ comp = ['.'] then comps
  else if comp ≠ ['.', '.'] ∨ (slashes = 0 ∧ comps = []) ∨ comps.getLast? = some ['.', '.'] then
    comps ++ [comp]
  else comps.dropLast

/-- `posixpath.normpath`. -/
def normpath (path : List Char) : List Char :=
  if path = [] then ['.']
  else
    let slashes := initialSlashes path
    let comps := (path.splitOn '/').foldl (takeComponent slashes) []
    let normal := List.replicate slashes '/' ++ List.intercalate ['/'] comps
    if normal = [] then ['.'] else normal

example : normpath "/var/./lib//lark/../outbox/".toList = "/var/lib/outbox".toList := by decide

/-! ### The whitelist -/

/-- `s.rstrip("/")`. -/
def rstripSlash (path : List Char) : List Char :=
  (path.reverse.dropWhile fun c => decide (c = '/')).reverse

/-- `path_within_whitelist`. -/
def pathWithinWhitelist (path : String) (whitelist : List String) : Bool :=
  if ¬ ['/'].isPrefixOf path.toList then false
  else
    let p := normpath path.toList
    if p = ['/'] ∨ ∃ seg ∈ p.splitOn '/', seg = ['.', '.'] ∨ seg = ['.'] then false
    else
      whitelist.any fun entry =>
        let base := normpath entry.toList
        ['/'].isPrefixOf base && (decide (p = base) || (rstripSlash base ++ ['/']).isPrefixOf p)

/-- `DEFAULT_PULL_WHITELIST`. -/
def defaultPullWhitelist : List String := ["/var/lib/lark-agent/outbox"]

/-- `_pull_whitelist`, of the value of the rule `transfer.pull_whitelist`. -/
def pullWhitelist : Option Json → Except PyErr (List String)
  | none => pure defaultPullWhitelist
  | some ruleValue => do
      let value := ruleValue.pyOr (.obj [])
      let paths ← value.get "paths"
      let val ← if paths.truthy then pure paths else value.get "whitelist"
      match val with
      | .arr items => pure (items.map Json.pyStr)
      | _ => pure defaultPullWhitelist

end LarkPlat
