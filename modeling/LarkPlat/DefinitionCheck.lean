import LarkPlat.CycleCheck

/-!
# What the Validator Decides

`_validate_definition` reads an untrusted JSON value. Its first loop checks that every node is an
object with a new key and a known type; its second loop reads the reference fields, node by node, and
looks every reference up in the set of the keys. A list or an object has no hash, so that this
look-up raises `TypeError` where the reference would be refused as unknown.

## Main results

* `checkNodes_cases`, `collectEdges_reads`: what each of the loops decides.
* `validateDefinition_ok_iff`: the validator returns exactly the well-formed definitions.
* `definition_checked_iff`: it is total and exact on a value exactly if the first fault of its
  reference fields is not a list or an object among the references.
-/

namespace LarkPlat

/-! ### Well-formed definitions -/

/-- An object with a key and a known type. -/
def IsNode (n : Json) : Prop :=
  ∃ fields key type, n = .obj fields ∧ Json.field fields "key" = .str key ∧ key ≠ "" ∧
    NodeType.ofJson? (Json.field fields "type") = some type

/-- A reference field that is absent or falsy, or a list of existing keys. -/
def RefersTo (keys : List String) (v : Json) : Prop :=
  v.truthy = false ∨ ∃ items, v = .arr items ∧ ∀ r ∈ items, ∃ k ∈ keys, r = .str k

/-- The links of a field: from each referenced key to the referring one. -/
def fieldLinks (n : Json) (field : String) : List (String × String) :=
  (refs n field).map fun r => (r, (nodeKey? n).getD "")

/-- The links of all nodes. -/
def nodeLinks (nodes : List Json) : List (String × String) :=
  nodes.flatMap fun n => refFields.flatMap (fieldLinks n)

/-- Nodes with distinct keys. -/
structure KeyedNodes (nodes : List Json) : Prop where
  isNode : ∀ n ∈ nodes, IsNode n
  distinct : (nodes.filterMap nodeKey?).Nodup

/-- Nodes that a definition may have. -/
structure WellFormedNodes (nodes : List Json) : Prop extends KeyedNodes nodes where
  few : nodes.length ≤ 100
  refer : ∀ n ∈ nodes, ∀ f ∈ refFields,
    RefersTo (nodes.filterMap nodeKey?) (Json.field (nodeFields n) f)
  links : (nodeLinks nodes).length ≤ 500
  acyclic : ¬ Cyclic (nodeLinks nodes)

/-- A well-formed definition is an object whose `nodes` are a list of such nodes. -/
def WellFormed (d : Json) : Prop :=
  ∃ fields nodes, d = .obj fields ∧ Json.field fields "nodes" = .arr nodes ∧ WellFormedNodes nodes

/-! ### The first loop -/

section Nodes

variable {i : ℕ} {keys : List String} {n : Json}

theorem checkNodes_of_not_isNode (i : ℕ) (keys : List String) (rest : List Json)
    (hn : ¬ IsNode n) : ∃ m, checkNodes i keys (n :: rest) = .error (.validation m) := by
  cases n with
  | obj fields =>
      cases hkey : Json.field fields "key" with
      | str key =>
          by_cases hempty : key = ""
          · exact ⟨_, by rw [checkNodes, hkey]; exact if_pos hempty⟩
          by_cases hdup : key ∈ keys
          · exact ⟨_, by rw [checkNodes, hkey]; exact (if_neg hempty).trans (if_pos hdup)⟩
          cases htype : NodeType.ofJson? (Json.field fields "type") with
          | some type => exact absurd ⟨fields, key, type, rfl, hkey, hempty, htype⟩ hn
          | none =>
              exact ⟨_, by rw [checkNodes, hkey, htype]; exact (if_neg hempty).trans (if_neg hdup)⟩
      | _ => exact ⟨_, by rw [checkNodes, hkey]⟩
  | _ => exact ⟨_, rfl⟩

theorem checkNodes_of_isNode (i : ℕ) (keys : List String) (rest : List Json) (hn : IsNode n) :
    ∃ key m, nodeKey? n = some key ∧ checkNodes i keys (n :: rest) =
      if key ∈ keys then .error (.validation m) else checkNodes (i + 1) (keys ++ [key]) rest := by
  obtain ⟨fields, key, type, rfl, hkey, hempty, htype⟩ := hn
  refine ⟨key, "duplicate node key: " ++ key, by rw [nodeKey?, nodeFields, hkey], ?_⟩
  rw [checkNodes, hkey]
  refine (if_neg hempty).trans ?_
  rw [htype]

/-- The first loop returns the keys of nodes with distinct keys, and refuses everything else. -/
theorem checkNodes_cases (nodes : List Json) (hkeys : keys.Nodup) :
    (((∀ n ∈ nodes, IsNode n) ∧ (keys ++ nodes.filterMap nodeKey?).Nodup) ∧
        checkNodes i keys nodes = .ok (keys ++ nodes.filterMap nodeKey?)) ∨
      (¬ ((∀ n ∈ nodes, IsNode n) ∧ (keys ++ nodes.filterMap nodeKey?).Nodup) ∧
        ∃ m, checkNodes i keys nodes = .error (.validation m)) := by
  induction nodes generalizing i keys with
  | nil =>
      refine .inl ⟨⟨fun n hn => absurd hn List.not_mem_nil, ?_⟩, ?_⟩
      · rwa [List.filterMap_nil, List.append_nil]
      · rw [List.filterMap_nil, List.append_nil, checkNodes]
  | cons n rest ih =>
      by_cases hn : IsNode n
      swap
      · exact .inr ⟨fun h => hn (h.1 n List.mem_cons_self), checkNodes_of_not_isNode i keys rest hn⟩
      obtain ⟨key, m, hkey, hloop⟩ := checkNodes_of_isNode i keys rest hn
      have hsplit : keys ++ (n :: rest).filterMap nodeKey? =
          keys ++ [key] ++ rest.filterMap nodeKey? := by
        rw [List.filterMap_cons_some hkey, List.append_assoc, List.singleton_append]
      rw [hloop, hsplit, List.forall_mem_cons]
      by_cases hdup : key ∈ keys
      · rw [if_pos hdup]
        refine .inr ⟨?_, m, rfl⟩
        rintro ⟨-, hnodup⟩
        have hnodup := (List.nodup_append.mp hnodup).1
        exact (List.nodup_append.mp hnodup).2.2 key hdup key (List.mem_singleton.mpr rfl) rfl
      · rw [if_neg hdup]
        have hnodup : (keys ++ [key]).Nodup := by
          rw [← List.concat_eq_append, List.nodup_concat]
          exact ⟨hdup, hkeys⟩
        rcases ih (i := i + 1) hnodup with ⟨⟨hnodes, hall⟩, hres⟩ | ⟨hnot, hres⟩
        · exact .inl ⟨⟨⟨hn, hnodes⟩, hall⟩, hres⟩
        · exact .inr ⟨fun h => hnot ⟨h.1.2, h.2⟩, hres⟩

theorem firstLoop_cases (nodes : List Json) :
    (KeyedNodes nodes ∧ checkNodes 0 [] nodes = .ok (nodes.filterMap nodeKey?)) ∨
      (¬ KeyedNodes nodes ∧ ∃ m, checkNodes 0 [] nodes = .error (.validation m)) := by
  rcases checkNodes_cases (i := 0) nodes List.nodup_nil with ⟨⟨h, hn⟩, hres⟩ | ⟨hnot, hres⟩
  · exact .inl ⟨⟨h, hn⟩, hres⟩
  · exact .inr ⟨fun h => hnot ⟨h.isNode, h.distinct⟩, hres⟩

end Nodes

/-! ### The second loop -/

/-- What the second loop meets in a reference field: a value that is no list, or a reference. -/
inductive Met where
  | noList
  | ref (r : Json)

/-- A list and an object have no hash. -/
def Met.hashable : Met → Bool
  | .ref (.arr _) => false
  | .ref (.obj _) => false
  | _ => true

/-- The reference is an existing key. -/
def Met.known (keys : List String) : Met → Bool
  | .ref (.str k) => decide (k ∈ keys)
  | _ => false

/-- What it meets in one field. -/
def metIn (n : Json) (field : String) : List Met :=
  match (Json.field (nodeFields n) field).pyOr (.arr []) with
  | .arr items => items.map .ref
  | _ => [.noList]

/-- What it meets in all nodes, in its order. -/
def metInNodes (nodes : List Json) : List Met :=
  nodes.flatMap fun n => refFields.flatMap (metIn n)

/-- The first that is not an existing key. -/
def firstFault (keys : List String) (l : List Met) : Option Met :=
  l.find? fun m => !m.known keys

/-- A loop returns its edges if it meets no fault. A fault is refused if it has a hash. -/
def ReadsRefs (edges : List (String × String)) (fault : Option Met)
    (res : Except PyErr (List (String × String))) : Prop :=
  match fault with
  | none => res = .ok edges
  | some m =>
      if m.hashable = true then ∃ msg, res = .error (.validation msg) else res = .error .typeError

section Refs

variable {keys : List String} {n : Json} {nodes : List Json} {edges : List (String × String)}
  {l l' : List Met} {res : Except PyErr (List (String × String))}

theorem firstFault_append :
    firstFault keys (l ++ l') = (firstFault keys l).or (firstFault keys l') :=
  List.find?_append

theorem firstFault_eq_none : firstFault keys l = none ↔ ∀ m ∈ l, m.known keys = true := by
  rw [firstFault, List.find?_eq_none]
  simp only [Bool.not_eq_true', Bool.not_eq_false]

theorem ReadsRefs.fault {m : Met} (h : ReadsRefs edges (some m) res) :
    ∃ e, res = .error e ∧ ∀ edges', ReadsRefs edges' (some m) (.error e) := by
  by_cases hm : m.hashable = true
  · obtain ⟨msg, hres⟩ := (if_pos hm).mp h
    exact ⟨_, hres, fun _ => (if_pos hm).mpr ⟨msg, rfl⟩⟩
  · exact ⟨.typeError, (if_neg hm).mp h, fun _ => (if_neg hm).mpr rfl⟩

theorem checkRefs_reads (keys : List String) (key field : String) (items : List Json) :
    ReadsRefs ((items.filterMap str?).map fun r => (r, key)) (firstFault keys (items.map .ref))
      (checkRefs keys key field items) := by
  induction items with
  | nil => rfl
  | cons r items ih =>
      cases r with
      | arr | obj => rfl
      | null | bool | int | float => exact ⟨_, rfl⟩
      | str s =>
          by_cases hs : s ∈ keys
          · have hfault : firstFault keys ((Json.str s :: items).map .ref) =
                firstFault keys (items.map .ref) := by
              rw [List.map_cons, firstFault, List.find?_cons_of_neg, firstFault]
              simp [Met.known, hs]
            have hres : checkRefs keys key field (.str s :: items) =
                (checkRefs keys key field items).map ((s, key) :: ·) := by
              refine (if_pos hs : checkRefs keys key field (.str s :: items) = _).trans ?_
              cases checkRefs keys key field items <;> rfl
            rw [hfault, hres]
            cases hf : firstFault keys (items.map .ref) with
            | none =>
                rw [hf] at ih
                exact congrArg (Except.map ((s, key) :: ·)) ih
            | some m =>
                rw [hf] at ih
                obtain ⟨e, herror, hreads⟩ := ih.fault
                rw [herror]
                exact hreads _
          · have hfault : firstFault keys ((Json.str s :: items).map .ref) =
                some (.ref (.str s)) := by
              rw [List.map_cons, firstFault, List.find?_cons_of_pos]
              simp [Met.known, hs]
            rw [hfault]
            exact ⟨_, (if_neg hs : checkRefs keys key field (.str s :: items) = _)⟩

theorem fieldEdges_reads (keys : List String) (n : Json) (field : String) :
    ReadsRefs (fieldLinks n field) (firstFault keys (metIn n field)) (fieldEdges keys n field) := by
  cases hv : (Json.field (nodeFields n) field).pyOr (.arr []) with
  | arr items =>
      have hlinks : fieldLinks n field =
          (items.filterMap str?).map fun r => (r, (nodeKey? n).getD "") := by
        rw [fieldLinks, refs, listOf, hv]
      have hmet : metIn n field = items.map .ref := by rw [metIn, hv]
      have hres : fieldEdges keys n field =
          checkRefs keys ((nodeKey? n).getD "") field items := by
        rw [fieldEdges, hv]
      rw [hlinks, hmet, hres]
      exact checkRefs_reads keys _ field items
  | _ =>
      have hmet : metIn n field = [.noList] := by rw [metIn, hv]
      rw [hmet]
      exact ⟨_, by rw [fieldEdges, hv]⟩

theorem foldlM_reads (keys : List String) (ps : List (Json × String)) :
    ∀ acc : List (String × String),
      ReadsRefs (acc ++ ps.flatMap fun p => fieldLinks p.1 p.2)
        (firstFault keys (ps.flatMap fun p => metIn p.1 p.2))
        (ps.foldlM (fun edges p =>
          match fieldEdges keys p.1 p.2 with
          | .error e => .error e
          | .ok es => .ok (edges ++ es)) acc) := by
  induction ps with
  | nil => exact fun acc => congrArg Except.ok (List.append_nil acc).symm
  | cons p ps ih =>
      intro acc
      have hfield := fieldEdges_reads keys p.1 p.2
      rw [List.flatMap_cons, List.flatMap_cons, firstFault_append, List.foldlM_cons]
      cases hf : firstFault keys (metIn p.1 p.2) with
      | none =>
          rw [hf] at hfield
          have hfield : fieldEdges keys p.1 p.2 = .ok (fieldLinks p.1 p.2) := hfield
          rw [hfield, Option.none_or, ← List.append_assoc]
          exact ih (acc ++ fieldLinks p.1 p.2)
      | some m =>
          rw [hf] at hfield
          obtain ⟨e, herror, hreads⟩ := hfield.fault
          rw [Option.some_or, herror]
          exact hreads _

/-- **The second loop.** It returns the links of the nodes, unless it meets a fault. -/
theorem collectEdges_reads (keys : List String) (nodes : List Json) :
    ReadsRefs (nodeLinks nodes) (firstFault keys (metInNodes nodes)) (collectEdges keys nodes) := by
  have hpairs : ∀ {β : Type} (g : Json → String → List β),
      (nodes.flatMap fun n => refFields.map fun f => (n, f)).flatMap (fun p => g p.1 p.2) =
        nodes.flatMap fun n => refFields.flatMap (g n) := by
    intro β g
    rw [List.flatMap_assoc]
    exact congrArg (nodes.flatMap ·) (funext fun n => List.flatMap_map ..)
  have hloop := foldlM_reads keys (nodes.flatMap fun n => refFields.map fun f => (n, f)) []
  rwa [hpairs, hpairs, List.nil_append] at hloop

theorem firstFault_metIn (keys : List String) (n : Json) (field : String) :
    firstFault keys (metIn n field) = none ↔
      RefersTo keys (Json.field (nodeFields n) field) := by
  rw [firstFault_eq_none]
  generalize hv : Json.field (nodeFields n) field = v
  by_cases hfalsy : v.truthy = true
  swap
  · have hmet : metIn n field = [] := by
      rw [metIn, hv, Json.pyOr, if_neg hfalsy]
      rfl
    rw [hmet]
    exact iff_of_true (fun m hm => absurd hm List.not_mem_nil)
      (.inl (Bool.eq_false_iff.mpr hfalsy))
  have hor : v.pyOr (.arr []) = v := if_pos hfalsy
  have hnot : ¬ v.truthy = false := by rw [hfalsy]; exact Bool.noConfusion
  cases v with
  | arr items =>
      have hmet : metIn n field = items.map .ref := by rw [metIn, hv, hor]
      rw [hmet]
      constructor
      · intro h
        refine .inr ⟨items, rfl, fun r hr => ?_⟩
        have hknown := h (.ref r) (List.mem_map_of_mem hr)
        cases r with
        | str k => exact ⟨k, of_decide_eq_true hknown, rfl⟩
        | _ => cases hknown
      · rintro (h | ⟨items', heq, h⟩) m hm
        · exact absurd h hnot
        · cases heq
          obtain ⟨r, hr, rfl⟩ := List.mem_map.mp hm
          obtain ⟨k, hk, rfl⟩ := h r hr
          exact decide_eq_true hk
  | _ =>
      have hmet : metIn n field = [.noList] := by rw [metIn, hv, hor]
      rw [hmet]
      refine iff_of_false (fun h => ?_) ?_
      · cases h .noList (List.mem_singleton.mpr rfl)
      · rintro (h | ⟨items, heq, -⟩)
        · exact hnot h
        · cases heq

theorem firstFault_metInNodes (keys : List String) (nodes : List Json) :
    firstFault keys (metInNodes nodes) = none ↔
      ∀ n ∈ nodes, ∀ f ∈ refFields, RefersTo keys (Json.field (nodeFields n) f) := by
  rw [firstFault_eq_none]
  constructor
  · intro h n hn f hf
    refine (firstFault_metIn keys n f).mp (firstFault_eq_none.mpr fun m hm => h m ?_)
    exact List.mem_flatMap.mpr ⟨n, hn, List.mem_flatMap.mpr ⟨f, hf, hm⟩⟩
  · intro h m hm
    obtain ⟨n, hn, hm⟩ := List.mem_flatMap.mp hm
    obtain ⟨f, hf, hm⟩ := List.mem_flatMap.mp hm
    exact firstFault_eq_none.mp ((firstFault_metIn keys n f).mpr (h n hn f hf)) m hm

end Refs

/-! ### The validator -/

/-- A reference that is a list or an object comes before every other fault, in a definition whose
nodes pass the first loop. -/
def MeetsUnhashable (d : Json) : Prop :=
  ∃ fields nodes m, d = .obj fields ∧ Json.field fields "nodes" = .arr nodes ∧
    nodes.length ≤ 100 ∧ KeyedNodes nodes ∧
    firstFault (nodes.filterMap nodeKey?) (metInNodes nodes) = some m ∧ m.hashable = false

/-- The validator returns the value or refuses it, and returns just the well-formed definitions. -/
def CheckedExactly (d : Json) : Prop :=
  (validateDefinition d = .ok d ∨ ∃ m, validateDefinition d = .error (.validation m)) ∧
    ((∃ d', validateDefinition d = .ok d') ↔ WellFormed d)

section Validator

variable {fields : List (String × Json)} {nodes : List Json}

theorem wellFormed_iff (hnodes : Json.field fields "nodes" = .arr nodes) :
    WellFormed (.obj fields) ↔ WellFormedNodes nodes := by
  constructor
  · rintro ⟨fields', nodes', heq, hnodes', h⟩
    cases heq
    rw [hnodes] at hnodes'
    cases hnodes'
    exact h
  · exact fun h => ⟨fields, nodes, rfl, hnodes, h⟩

theorem meetsUnhashable_iff (hnodes : Json.field fields "nodes" = .arr nodes) :
    MeetsUnhashable (.obj fields) ↔ ∃ m, nodes.length ≤ 100 ∧ KeyedNodes nodes ∧
      firstFault (nodes.filterMap nodeKey?) (metInNodes nodes) = some m ∧ m.hashable = false := by
  constructor
  · rintro ⟨fields', nodes', m, heq, hnodes', h⟩
    cases heq
    rw [hnodes] at hnodes'
    cases hnodes'
    exact ⟨m, h⟩
  · rintro ⟨m, h⟩
    exact ⟨fields, nodes, m, rfl, hnodes, h⟩

theorem nodeLinks_over (hkeyed : KeyedNodes nodes)
    (hrefer : ∀ n ∈ nodes, ∀ f ∈ refFields,
      RefersTo (nodes.filterMap nodeKey?) (Json.field (nodeFields n) f)) :
    ∀ e ∈ nodeLinks nodes,
      e.1 ∈ nodes.filterMap nodeKey? ∧ e.2 ∈ nodes.filterMap nodeKey? := by
  intro e he
  obtain ⟨n, hn, he⟩ := List.mem_flatMap.mp he
  obtain ⟨f, hf, he⟩ := List.mem_flatMap.mp he
  obtain ⟨r, hr, rfl⟩ := List.mem_map.mp he
  obtain ⟨fields, key, type, rfl, hkey, -⟩ := hkeyed.isNode n hn
  have hnode : nodeKey? (.obj fields) = some key := by rw [nodeKey?, nodeFields, hkey]
  refine ⟨?_, List.mem_filterMap.mpr ⟨_, hn, by rw [hnode]; rfl⟩⟩
  rcases hrefer _ hn f hf with hfalsy | ⟨items, hitems, hknown⟩
  · have hnone : refs (.obj fields) f = [] := by
      rw [refs, listOf, Json.pyOr, hfalsy]
      rfl
    rw [hnone] at hr
    cases hr
  · have hrefs : refs (.obj fields) f = items.filterMap str? := by
      rw [refs, hitems]
      cases items <;> rfl
    rw [hrefs] at hr
    obtain ⟨v, hv, hstr⟩ := List.mem_filterMap.mp hr
    obtain ⟨k, hk, rfl⟩ := hknown v hv
    cases hstr
    exact hk

theorem validateDefinition_keys {keys : List String}
    (hnodes : Json.field fields "nodes" = .arr nodes) (hfew : nodes.length ≤ 100)
    (hkeys : checkNodes 0 [] nodes = .ok keys) :
    validateDefinition (.obj fields) =
      match collectEdges keys nodes with
      | .error e => .error e
      | .ok edges =>
          if 500 < edges.length then
            .error (.validation ("definition exceeds edge cap " ++ toString maxEdges))
          else (assertAcyclic keys edges).map fun _ => .obj fields := by
  rw [validateDefinition, hnodes]
  refine (if_neg (Nat.not_lt.mpr hfew)).trans ?_
  rw [hkeys]
  cases hedges : collectEdges keys nodes with
  | error e =>
      change (collectEdges keys nodes >>= _) = _
      rw [hedges]
      rfl
  | ok edges =>
      change (collectEdges keys nodes >>= _) = _
      rw [hedges]
      by_cases hmany : 500 < edges.length
      · exact (if_pos (c := maxEdges < edges.length) hmany).trans (if_pos hmany).symm
      · refine (if_neg (c := maxEdges < edges.length) hmany).trans ((if_neg hmany).trans ?_).symm
        cases assertAcyclic keys edges <;> rfl

theorem validateDefinition_keyed (hnodes : Json.field fields "nodes" = .arr nodes)
    (hfew : nodes.length ≤ 100) (hkeyed : KeyedNodes nodes) :
    (WellFormedNodes nodes ∧ validateDefinition (.obj fields) = .ok (.obj fields)) ∨
      (¬ WellFormedNodes nodes ∧
        (∀ m, firstFault (nodes.filterMap nodeKey?) (metInNodes nodes) = some m →
          m.hashable = true) ∧
        ∃ m, validateDefinition (.obj fields) = .error (.validation m)) ∨
      ∃ m, firstFault (nodes.filterMap nodeKey?) (metInNodes nodes) = some m ∧
        m.hashable = false ∧ validateDefinition (.obj fields) = .error .typeError := by
  have hkeys : checkNodes 0 [] nodes = .ok (nodes.filterMap nodeKey?) := by
    rcases firstLoop_cases nodes with ⟨-, h⟩ | ⟨hnot, -⟩
    · exact h
    · exact absurd hkeyed hnot
  have hreads := collectEdges_reads (nodes.filterMap nodeKey?) nodes
  rw [validateDefinition_keys hnodes hfew hkeys]
  cases hfault : firstFault (nodes.filterMap nodeKey?) (metInNodes nodes) with
  | some m =>
      rw [hfault] at hreads
      by_cases hm : m.hashable = true
      · obtain ⟨msg, hres⟩ := (if_pos hm).mp hreads
        refine .inr (.inl ⟨fun h => ?_, fun m' h => Option.some.inj h ▸ hm, msg, by rw [hres]⟩)
        rw [(firstFault_metInNodes _ nodes).mpr h.refer] at hfault
        cases hfault
      · have hres := (if_neg hm).mp hreads
        exact .inr (.inr ⟨m, rfl, Bool.eq_false_iff.mpr hm, by rw [hres]⟩)
  | none =>
      rw [hfault] at hreads
      have hres : collectEdges (nodes.filterMap nodeKey?) nodes = .ok (nodeLinks nodes) := hreads
      have hrefer := (firstFault_metInNodes _ nodes).mp hfault
      rw [hres]
      dsimp only
      by_cases hmany : 500 < (nodeLinks nodes).length
      · rw [if_pos hmany]
        exact .inr (.inl ⟨fun h => absurd hmany (Nat.not_lt.mpr h.links), fun _ h => (by cases h),
          _, rfl⟩)
      · rw [if_neg hmany]
        rcases assertAcyclic_cases (nodeLinks_over hkeyed hrefer) with
          ⟨hcheck, hcyclic⟩ | ⟨hcheck, hacyclic⟩
        · rw [hcheck]
          exact .inr (.inl ⟨fun h => h.acyclic hcyclic, fun _ h => (by cases h), _, rfl⟩)
        · rw [hcheck]
          exact .inl ⟨⟨hkeyed, hfew, hrefer, Nat.not_lt.mp hmany, hacyclic⟩, rfl⟩

/-- **The validator** returns what is well formed and refuses the rest, but for a definition in which
it meets a reference without a hash, where it raises `TypeError`. -/
theorem validateDefinition_cases (d : Json) :
    (WellFormed d ∧ ¬ MeetsUnhashable d ∧ validateDefinition d = .ok d) ∨
      (¬ WellFormed d ∧ ¬ MeetsUnhashable d ∧
        ∃ m, validateDefinition d = .error (.validation m)) ∨
      (¬ WellFormed d ∧ MeetsUnhashable d ∧ validateDefinition d = .error .typeError) := by
  cases d with
  | obj fields =>
      cases hnodes : Json.field fields "nodes" with
      | arr nodes =>
          rw [wellFormed_iff hnodes, meetsUnhashable_iff hnodes]
          by_cases hfew : nodes.length ≤ 100
          swap
          · refine .inr (.inl ⟨fun h => hfew h.few, fun ⟨_, h, _⟩ => hfew h,
              "definition exceeds node cap " ++ toString maxNodes, ?_⟩)
            rw [validateDefinition, hnodes]
            exact if_pos (Nat.lt_of_not_le hfew)
          by_cases hkeyed : KeyedNodes nodes
          swap
          · refine .inr (.inl ⟨fun h => hkeyed h.toKeyedNodes, fun ⟨_, _, h, _⟩ => hkeyed h, ?_⟩)
            rcases firstLoop_cases nodes with ⟨h, -⟩ | ⟨-, m, hkeys⟩
            · exact absurd h hkeyed
            · refine ⟨m, ?_⟩
              rw [validateDefinition, hnodes]
              refine (if_neg (Nat.not_lt.mpr hfew)).trans ?_
              rw [hkeys]
              rfl
          rcases validateDefinition_keyed hnodes hfew hkeyed with
            ⟨hwell, hres⟩ | ⟨hnot, hhash, hres⟩ | ⟨m, hfault, hm, hres⟩
          · refine .inl ⟨hwell, fun ⟨m, _, _, hfault, _⟩ => ?_, hres⟩
            rw [(firstFault_metInNodes _ nodes).mpr hwell.refer] at hfault
            cases hfault
          · refine .inr (.inl ⟨hnot, fun ⟨m, _, _, hfault, hm⟩ => ?_, hres⟩)
            rw [hhash m hfault] at hm
            cases hm
          · refine .inr (.inr ⟨fun hwell => ?_, ⟨m, hfew, hkeyed, hfault, hm⟩, hres⟩)
            rw [(firstFault_metInNodes _ nodes).mpr hwell.refer] at hfault
            cases hfault
      | _ =>
          refine .inr (.inl ⟨?_, ?_, "definition.nodes must be a list", ?_⟩)
          · rintro ⟨fields', nodes, heq, h, -⟩
            cases heq
            rw [hnodes] at h
            cases h
          · rintro ⟨fields', nodes, m, heq, h, -⟩
            cases heq
            rw [hnodes] at h
            cases h
          · rw [validateDefinition, hnodes]
  | _ =>
      refine .inr (.inl ⟨?_, ?_, "definition must be an object", rfl⟩)
      · rintro ⟨fields, nodes, heq, -⟩
        cases heq
      · rintro ⟨fields, nodes, m, heq, -⟩
        cases heq

/-- The validator returns exactly the well-formed definitions. -/
theorem validateDefinition_ok_iff (d : Json) : validateDefinition d = .ok d ↔ WellFormed d := by
  rcases validateDefinition_cases d with ⟨h, -, hres⟩ | ⟨h, -, m, hres⟩ | ⟨h, -, hres⟩
  · exact iff_of_true hres h
  · exact iff_of_false (by rw [hres]; exact nofun) h
  · exact iff_of_false (by rw [hres]; exact nofun) h

/-- **Total and exact.** The validator decides a value as it should exactly if it does not meet a
list or an object among the references before any other fault. -/
theorem definition_checked_iff (d : Json) : CheckedExactly d ↔ ¬ MeetsUnhashable d := by
  have hexact : (∃ d', validateDefinition d = .ok d') ↔ WellFormed d := by
    rw [← validateDefinition_ok_iff]
    exact ⟨fun ⟨d', h⟩ => h.trans (congrArg Except.ok (accepted_of_validate h).1), fun h => ⟨d, h⟩⟩
  rw [CheckedExactly, and_iff_left hexact]
  rcases validateDefinition_cases d with ⟨-, h, hres⟩ | ⟨-, h, m, hres⟩ | ⟨-, h, hres⟩
  · exact iff_of_true (.inl hres) h
  · exact iff_of_true (.inr ⟨m, hres⟩) h
  · refine iff_of_false ?_ fun hnot => hnot h
    rw [hres]
    rintro (heq | ⟨m, heq⟩) <;> cases heq

/-- A node that depends on an object. -/
def unhashableDefinition : Json :=
  .obj [("nodes", .arr [.obj [("key", .str "a"), ("type", .str "wait"),
    ("depends_on", .arr [.obj []])]])]

/-- It is refused by no message, but by a `TypeError`. -/
theorem unhashable_reference_raises :
    validateDefinition unhashableDefinition = .error .typeError ∧
      ¬ CheckedExactly unhashableDefinition := by
  have hres : validateDefinition unhashableDefinition = .error .typeError := by rfl
  refine ⟨hres, fun h => ?_⟩
  rcases h.1 with heq | ⟨m, heq⟩
  · rw [hres] at heq
    cases heq
  · rw [hres] at heq
    cases heq

end Validator

end LarkPlat
