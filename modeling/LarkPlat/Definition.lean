import LarkPlat.Json
import Mathlib.Logic.Function.Basic

/-!
# Workflow Definitions

A definition is a JSON object whose `nodes` list the steps of a playbook, with three kinds
of references between them: `depends_on` names the nodes a node waits for, `on_success` and
`on_failure` name the nodes it routes to. This module models the validator
`_validate_definition` with its depth-first cycle check, and the readers through which the
engine sees a stored definition.

Only accepted definitions are stored, so the engine works on `Definition`: a JSON value
together with the fact that the validator returned it.

## Main results

* `accepted_of_validate`: an accepted definition has distinct string keys, known node types
  and only known references.
-/

namespace LarkPlat

/-- `NODE_TYPES`. -/
inductive NodeType
  | execTask
  | manualApproval
  | wait
  | callback
  | sleep
  deriving DecidableEq, Repr

namespace NodeType

/-- The node type a JSON value names, if any. -/
def ofJson? : Json → Option NodeType
  | .str "exec_task" => some execTask
  | .str "manual_approval" => some manualApproval
  | .str "wait" => some wait
  | .str "callback" => some callback
  | .str "sleep" => some sleep
  | _ => none

end NodeType

/-! ### Reading a definition -/

/-- The fields of a dictionary; other values have none. -/
def nodeFields : Json → List (String × Json)
  | .obj fields => fields
  | _ => []

/-- `n["key"]` when it is a string. -/
def nodeKey? (n : Json) : Option String :=
  match Json.field (nodeFields n) "key" with
  | .str k => some k
  | _ => none

/-- `n["type"]` when it is one of `NODE_TYPES`. -/
def nodeType? (n : Json) : Option NodeType :=
  NodeType.ofJson? (Json.field (nodeFields n) "type")

/-- `x or []`, as a list of values. -/
def listOf (x : Json) : List Json :=
  match x.pyOr (.arr []) with
  | .arr items => items
  | _ => []

/-- A JSON string as a string. -/
def str? : Json → Option String
  | .str s => some s
  | _ => none

/-- `n.get(field) or []`: the references of a node. -/
def refs (n : Json) (field : String) : List String :=
  (listOf (Json.field (nodeFields n) field)).filterMap str?

/-- `definition.get("nodes") or []`. -/
def definitionNodes (d : Json) : List Json :=
  listOf (Json.field (nodeFields d) "nodes")

/-- The keys of the nodes, in definition order. -/
def definitionKeys (d : Json) : List String :=
  (definitionNodes d).filterMap nodeKey?

/-- The key and the type of a node. -/
def nodePair? (n : Json) : Option (String × NodeType) :=
  (nodeKey? n).bind fun key => (nodeType? n).map fun type => (key, type)

/-- The keys and types of the nodes, in definition order. -/
def definitionPairs (d : Json) : List (String × NodeType) :=
  (definitionNodes d).filterMap nodePair?

/-- `defnodes.get(k) or {}`: the node with key `k`; a later node with the same key replaces
an earlier one. -/
def defnode (d : Json) (k : String) : Json :=
  ((definitionNodes d).reverse.find? fun n => decide (nodeKey? n = some k)).getD (.obj [])

/-! ### The cycle check -/

/-- The colours of the depth-first search. -/
inductive Color
  | white
  | gray
  | black
  deriving DecidableEq

/-- The colours of all keys. -/
abbrev Coloring := String → Color

/-- The message of a detected cycle. -/
def cycleError : PyErr :=
  .validation "workflow definition contains a cycle"

/-- The inner function `visit` of `_assert_acyclic`; the fuel bounds the depth of the
recursion. -/
def visit (adj : String → List String) : ℕ → String → Coloring → Except PyErr Coloring
  | 0, _, _ => .error .recursionError
  | fuel + 1, node, color =>
      match (adj node).foldlM (fun c nxt =>
          match c nxt with
          | .gray => Except.error cycleError
          | .white => visit adj fuel nxt c
          | .black => Except.ok c) (Function.update color node .gray) with
      | .error e => .error e
      | .ok c => .ok (Function.update c node .black)

/-- `_assert_acyclic(keys, edges)`; the keys are visited in the given order. -/
def assertAcyclic (keys : List String) (edges : List (String × String)) : Except PyErr Unit :=
  let adj := fun src => (edges.filter fun e => decide (e.1 = src)).map (·.2)
  match keys.foldlM (fun c k =>
      match c k with
      | .white => visit adj (keys.length + 1) k c
      | _ => Except.ok c) (fun _ => Color.white) with
  | .error e => .error e
  | .ok _ => .ok ()

/-! ### The validator -/

/-- `_MAX_NODES`. -/
def maxNodes : ℕ := 100

/-- `_MAX_EDGES`. -/
def maxEdges : ℕ := 500

/-- The first loop of the validator: every node is an object with a new nonempty key and a
known type. Returns the keys. -/
def checkNodes : ℕ → List String → List Json → Except PyErr (List String)
  | _, keys, [] => .ok keys
  | i, keys, node :: rest =>
      match node with
      | .obj fields =>
          match Json.field fields "key" with
          | .str key =>
              if key = "" then
                .error (.validation ("node[" ++ toString i ++ "].key is required"))
              else if key ∈ keys then
                .error (.validation ("duplicate node key: " ++ key))
              else
                match NodeType.ofJson? (Json.field fields "type") with
                | none =>
                    .error (.validation ("node '" ++ key ++ "' type must be one of " ++
                      "['callback', 'exec_task', 'manual_approval', 'sleep', 'wait']"))
                | some _ => checkNodes (i + 1) (keys ++ [key]) rest
          | _ => .error (.validation ("node[" ++ toString i ++ "].key is required"))
      | _ => .error (.validation ("node[" ++ toString i ++ "] must be an object"))

/-- The references of one field of one node. A list or a dictionary is not hashable, so its
membership test in the key set raises `TypeError`. -/
def checkRefs (keys : List String) (key field : String) :
    List Json → Except PyErr (List (String × String))
  | [] => .ok []
  | ref :: rest =>
      match ref with
      | .arr _ | .obj _ => .error .typeError
      | ref =>
          match str? ref with
          | some r =>
              if r ∈ keys then
                match checkRefs keys key field rest with
                | .error e => .error e
                | .ok edges => .ok ((r, key) :: edges)
              else .error (.validation ("node '" ++ key ++ "'." ++ field ++
                " references unknown node '" ++ r ++ "'"))
          | none => .error (.validation ("node '" ++ key ++ "'." ++ field ++
              " references unknown node '" ++ ref.pyStr ++ "'"))

/-- One field of one node: absent, falsy, or a list of known keys. Every reference is
recorded as an edge from the referenced node to the referring one. -/
def fieldEdges (keys : List String) (node : Json) (field : String) :
    Except PyErr (List (String × String)) :=
  let key := (nodeKey? node).getD ""
  match (Json.field (nodeFields node) field).pyOr (.arr []) with
  | .arr items => checkRefs keys key field items
  | _ => .error (.validation ("node '" ++ key ++ "'." ++ field ++ " must be a list"))

/-- The three reference fields of a node. -/
def refFields : List String := ["depends_on", "on_success", "on_failure"]

/-- The second loop of the validator: the edges of all nodes. -/
def collectEdges (keys : List String) (nodes : List Json) :
    Except PyErr (List (String × String)) :=
  (nodes.flatMap fun n => refFields.map fun f => (n, f)).foldlM
    (fun edges p =>
      match fieldEdges keys p.1 p.2 with
      | .error e => .error e
      | .ok es => .ok (edges ++ es)) []

/-- `_validate_definition`. -/
def validateDefinition (definition : Json) : Except PyErr Json :=
  match definition with
  | .obj fields =>
      match Json.field fields "nodes" with
      | .arr nodes =>
          if maxNodes < nodes.length then
            .error (.validation ("definition exceeds node cap " ++ toString maxNodes))
          else do
            let keys ← checkNodes 0 [] nodes
            let edges ← collectEdges keys nodes
            if maxEdges < edges.length then
              throw (.validation ("definition exceeds edge cap " ++ toString maxEdges))
            assertAcyclic keys edges
            pure definition
      | _ => .error (.validation "definition.nodes must be a list")
  | _ => .error (.validation "definition must be an object")

/-! ### What acceptance guarantees -/

/-- The shape of an accepted definition. -/
structure Accepted (d : Json) : Prop where
  keyed : ∀ n ∈ definitionNodes d, ∃ k, nodeKey? n = some k
  typed : ∀ n ∈ definitionNodes d, ∃ t, nodeType? n = some t
  nodup : (definitionKeys d).Nodup
  known : ∀ n ∈ definitionNodes d, ∀ f ∈ refFields, ∀ r ∈ refs n f, r ∈ definitionKeys d

/-- The first loop returns the old keys followed by the keys of the nodes, all distinct. -/
theorem checkNodes_eq_ok {nodes : List Json} :
    ∀ {i : ℕ} {keys keys' : List String}, keys.Nodup → checkNodes i keys nodes = .ok keys' →
      keys' = keys ++ nodes.filterMap nodeKey? ∧ keys'.Nodup ∧
        ∀ n ∈ nodes, (∃ k, nodeKey? n = some k) ∧ ∃ t, nodeType? n = some t := by
  induction nodes with
  | nil =>
      intro i keys keys' hn h
      obtain rfl : keys = keys' := by simpa [checkNodes] using h
      simp [hn]
  | cons node rest ih =>
      intro i keys keys' hn h
      unfold checkNodes at h
      split at h
      swap
      · simp at h
      rename_i fields
      split at h
      swap
      · simp at h
      rename_i key hkey
      split_ifs at h with hempty hdup
      split at h
      · simp at h
      rename_i t htype
      have hk : nodeKey? (Json.obj fields) = some key := by simp [nodeKey?, nodeFields, hkey]
      have ht : nodeType? (Json.obj fields) = some t := by simp [nodeType?, nodeFields, htype]
      have hn' : (keys ++ [key]).Nodup := by
        rw [List.nodup_append]
        refine ⟨hn, by simp, ?_⟩
        intro a ha b hb
        obtain rfl := List.mem_singleton.mp hb
        rintro rfl
        exact hdup ha
      obtain ⟨hkeys, hnodup, hrest⟩ := ih hn' h
      refine ⟨?_, hnodup, ?_⟩
      · rw [hkeys, List.filterMap_cons_some hk, List.append_assoc]
        rfl
      · intro n hmem
        rcases List.mem_cons.mp hmem with rfl | hmem
        · exact ⟨⟨key, hk⟩, t, ht⟩
        · exact hrest n hmem

theorem checkRefs_known {keys : List String} {key field : String} {items : List Json} :
    ∀ {edges : List (String × String)}, checkRefs keys key field items = .ok edges →
      ∀ r ∈ items.filterMap str?, r ∈ keys := by
  induction items with
  | nil => intro edges _ r hr; simp at hr
  | cons ref rest ih =>
      intro edges h r hr
      unfold checkRefs at h
      split at h
      · simp at h
      · simp at h
      · split at h
        · rename_i s hs
          split_ifs at h with hmem
          split at h
          · simp at h
          · rename_i es hes
            rw [List.filterMap_cons_some hs] at hr
            rcases List.mem_cons.mp hr with rfl | hr
            · exact hmem
            · exact ih hes r hr
        · simp at h

theorem collectEdges_field {keys : List String} {ps : List (Json × String)} :
    ∀ {acc edges : List (String × String)},
      ps.foldlM (fun edges p =>
        match fieldEdges keys p.1 p.2 with
        | .error e => .error e
        | .ok es => .ok (edges ++ es)) acc = (.ok edges : Except PyErr _) →
      ∀ p ∈ ps, ∃ es, fieldEdges keys p.1 p.2 = .ok es := by
  induction ps with
  | nil => intro acc edges _ p hp; simp at hp
  | cons q ps ih =>
      intro acc edges h p hp
      rw [List.foldlM_cons] at h
      rcases hq : fieldEdges keys q.1 q.2 with e | es
      · simp [hq, bind, Except.bind] at h
      · simp only [hq, bind, Except.bind] at h
        rcases List.mem_cons.mp hp with rfl | hp
        · exact ⟨es, hq⟩
        · exact ih h p hp

/-- **Acceptance.** The validator returns its argument unchanged, and an accepted
definition has distinct string keys, known types and known references. -/
theorem accepted_of_validate {d d' : Json} (h : validateDefinition d = .ok d') :
    d' = d ∧ Accepted d := by
  unfold validateDefinition at h
  split at h
  swap
  · simp at h
  rename_i fields
  split at h
  swap
  · simp at h
  rename_i nodes hnodes
  have hdn : definitionNodes (Json.obj fields) = nodes := by
    cases nodes <;> simp [definitionNodes, nodeFields, hnodes, listOf, Json.pyOr, Json.truthy]
  split_ifs at h
  simp only [bind, Except.bind] at h
  rcases hk : checkNodes 0 [] nodes with e | keys
  · simp [hk] at h
  rcases he : collectEdges keys nodes with e | edges
  · simp [hk, he] at h
  simp only [hk, he] at h
  obtain ⟨hkeys, hnodup, hshape⟩ := checkNodes_eq_ok List.nodup_nil hk
  have hdk : definitionKeys (Json.obj fields) = keys := by
    rw [definitionKeys, hdn, hkeys, List.nil_append]
  refine ⟨?_, ⟨?_, ?_, ?_, ?_⟩⟩
  · split_ifs at h
    simp only [pure, Except.pure] at h
    split at h
    · simp at h
    · exact (Except.ok.inj h).symm
  · rw [hdn]; exact fun n hn => (hshape n hn).1
  · rw [hdn]; exact fun n hn => (hshape n hn).2
  · rw [hdk]; exact hnodup
  · rw [hdn, hdk]
    intro n hn f hf r hr
    have hp : (n, f) ∈ nodes.flatMap fun n => refFields.map fun f => (n, f) :=
      List.mem_flatMap.mpr ⟨n, hn, List.mem_map.mpr ⟨f, hf, rfl⟩⟩
    obtain ⟨es, hes⟩ := collectEdges_field he (n, f) hp
    rw [fieldEdges] at hes
    dsimp only at hes
    split at hes
    · rename_i items hitems
      refine checkRefs_known hes r ?_
      simpa [refs, listOf, hitems] using hr
    · simp at hes

/-- A stored definition: the validator accepted it. -/
structure Definition where
  json : Json
  valid : validateDefinition json = .ok json

theorem Definition.accepted (D : Definition) : Accepted D.json :=
  (accepted_of_validate D.valid).2

theorem Accepted.map_fst_pairs {d : Json} (h : Accepted d) :
    (definitionPairs d).map (·.1) = definitionKeys d := by
  have hgen : ∀ l : List Json, (∀ n ∈ l, ∃ t, nodeType? n = some t) →
      (l.filterMap nodePair?).map (·.1) = l.filterMap nodeKey? := by
    intro l
    induction l with
    | nil => intro _; rfl
    | cons n l ih =>
        intro ht
        obtain ⟨t, hn⟩ := ht n List.mem_cons_self
        have hl := ih fun m hm => ht m (List.mem_cons_of_mem n hm)
        rcases hk : nodeKey? n with _ | k
        · have hp : nodePair? n = none := by rw [nodePair?, hk, Option.bind_none]
          rw [List.filterMap_cons_none hp, List.filterMap_cons_none hk, hl]
        · have hp : nodePair? n = some (k, t) := by rw [nodePair?, hk, hn]; rfl
          rw [List.filterMap_cons_some hp, List.filterMap_cons_some hk, List.map_cons, hl]
  exact hgen _ h.typed

/-- The node found under a key of a definition is one of its nodes and carries that key. -/
theorem defnode_mem {d : Json} {k : String} (hk : k ∈ definitionKeys d) :
    defnode d k ∈ definitionNodes d ∧ nodeKey? (defnode d k) = some k := by
  obtain ⟨n, hn, hnk⟩ := List.mem_filterMap.mp hk
  rw [defnode]
  rcases hf : (definitionNodes d).reverse.find? (fun n => decide (nodeKey? n = some k))
    with _ | m
  · rw [List.find?_eq_none] at hf
    exact absurd hnk (by simpa using hf n (List.mem_reverse.mpr hn))
  · have hm := List.mem_of_find?_eq_some hf
    have hmk := List.find?_some hf
    exact ⟨List.mem_reverse.mp hm, by simpa using hmk⟩

end LarkPlat
