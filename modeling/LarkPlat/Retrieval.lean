import LarkPlat.Knowledge

/-!
# Retrieval by an Assistant

`ai_scope.py` and `ai_service.py`: a search names an entity type, and the ids of that type that the
user may see are the scope that the embedded chunks are matched with. The ids of hosts, tickets and
articles are matched alike. Titles are searched among the articles only.

The embedding, the cosine, the rounding of a score and the comparison of a title with a pattern are
parameters.

## Main results

* `docRef_of_search`, `docRef_of_answer`: what is returned comes from a chunk in scope or from an
  article whose id is in scope.
* `ticket_of_similar`: the tickets that are returned are those of the category.
-/

namespace LarkPlat

open Ranking

variable {F S : Type} [LinearOrder S] [Zero S]

/-! ### Scopes -/

/-- `KNOWN_ENTITY_TYPES`. -/
def knownEntityTypes : List String := ["host", "ticket", "kb", "audit"]

/-- `_visible_hosts`. -/
def KbDb.visibleHosts (db : KbDb F) (user : Actor) : Finset String :=
  if user.isAdmin then (db.hosts.flatMap AssetHost.names).toFinset
  else (visibleEntityIds db.hosts user.visibleGroupIds).toFinset

/-- The user is the requester or the assignee, or sees the team. -/
def AiTicket.allowed (user : Actor) (t : AiTicket) : Bool :=
  decide (t.requesterId = some user.id) || decide (t.assigneeId = some user.id) ||
    t.teamId.any fun team => decide (team ∈ user.visibleGroupIds)

/-- `_visible_tickets`. -/
def KbDb.visibleTickets (db : KbDb F) (user : Actor) : Finset String :=
  ((db.tickets.filter fun t => user.isAdmin || t.allowed user).map fun t => toString t.id).toFinset

/-- The article is public or internal, or the user's own. -/
def KbArticle.visibleTo (user : Actor) (a : KbArticle) : Bool :=
  decide (a.visibility = .pub) || decide (a.visibility = .internal) ||
    decide (a.authorId = some user.id)

/-- `_visible_kb`. -/
def KbDb.visibleKb (db : KbDb F) (user : Actor) : Finset String :=
  insert globalScopeToken
    ((db.articles.filter fun a => user.isAdmin || a.visibleTo user).map
      fun a => toString a.id).toFinset

/-- `visible_entity_ids_for`. -/
def KbDb.visibleEntityIdsFor (db : KbDb F) (entityType : String) (user : Actor) : Finset String :=
  if entityType = "host" then db.visibleHosts user
  else if entityType = "ticket" then db.visibleTickets user
  else if entityType = "kb" then db.visibleKb user
  else if entityType = "audit" then (if user.isAdmin then {"*"} else ∅)
  else ∅

/-- `_scope_for`. -/
def KbDb.scopeFor (db : KbDb F) (user : Actor) (entityType : String) : Option ScopeFilter :=
  if entityType ∉ knownEntityTypes then some ⟨entityType, ∅⟩
  else if user.isAdmin then none
  else some ⟨entityType, db.visibleEntityIdsFor entityType user⟩

/-! ### Search -/

/-- What the services around a search compute. -/
structure KbEnv (F S : Type) where
  embed : String → List F
  cosine : List F → List F → S
  round6 : S → S
  /-- A title contains a text, by `ilike`. -/
  ilike : String → String → Bool

/-- An item of a result. -/
structure SearchItem (S : Type) where
  docRef : String
  chunkRef : String
  score : S
  branch : String
  title : Option String
  deriving DecidableEq

/-- A result of `kb_semantic_search`. -/
structure SearchResult (S : Type) where
  list : List (SearchItem S)
  total : ℕ
  mode : String
  failClosed : Bool
  deriving DecidableEq

variable (env : KbEnv F S)

/-- `build_embedding_store(db).query`: the store in memory is a new one. -/
def KbDb.queryStore (db : KbDb F) (queryVector : List F) (scope : Option ScopeFilter) (limit : ℕ) :
    Except PyErr (List (EmbeddingHit S)) :=
  match db.resolveStoreConfig with
  | .error e => .error e
  | .ok .pgArray =>
      .ok (EmbeddingStore.query (db.embeddings.candidates env.cosine) queryVector scope limit)
  | .ok .inMemory =>
      .ok (EmbeddingStore.query ((InMemoryEmbeddingStore.mk []).candidates env.cosine) queryVector
        scope limit)

/-- The articles whose title matches, those of a scope whose id it names. -/
def KbDb.titleMatches (db : KbDb F) (q : String) (scope : Option ScopeFilter) : List KbArticle :=
  db.articles.filter fun a =>
    env.ilike a.title q &&
      scope.all fun s => decide (∃ raw ∈ s.entityIds, Json.parseInt raw = some (a.id : ℤ))

/-- An article as an item. -/
def titleItem (a : KbArticle) : SearchItem S :=
  ⟨toString a.id, "article:" ++ toString a.id, 0, "fts", some a.title⟩

/-- `_fts_hits`. -/
def KbDb.ftsHits (db : KbDb F) (q : String) (scope : Option ScopeFilter) (entityType : String)
    (limit : ℕ) : List (SearchItem S) :=
  if entityType = "kb" then
    ((ranked KbArticle.id (db.titleMatches env q scope)).take limit).map titleItem
  else []

/-- A hit as an item. -/
def vectorItem (h : EmbeddingHit S) : SearchItem S :=
  ⟨h.docRef, h.chunkRef, env.round6 h.score, "vector", none⟩

/-- The first item of each chunk. -/
def dedupChunks (items : List (SearchItem S)) : List (SearchItem S) :=
  items.foldl
    (fun acc item => if acc.any fun i => decide (i.chunkRef = item.chunkRef) then acc
      else acc ++ [item]) []

/-- A scope that is there and empty. -/
def emptyScope (scope : Option ScopeFilter) : Bool :=
  scope.any fun s => decide (s.entityIds = ∅)

/-- `entity_type or "kb"`. -/
def askedType : Option String → String
  | some s => if s = "" then "kb" else s
  | none => "kb"

/-- `kb_semantic_search`. -/
def kbSemanticSearch (db : KbDb F) (user : Actor) (q mode : String) (limit : ℕ)
    (entityType : Option String) : Except PyErr (SearchResult S) := do
  db.requireFeature "ai.kb_assist"
  user.requirePerm "ai:use"
  let scope := db.scopeFor user (askedType entityType)
  if emptyScope scope = true then return ⟨[], 0, mode, true⟩
  let hits ← db.queryStore env (env.embed q) scope limit
  let out := hits.map (vectorItem env) ++
    if mode = "hybrid" ∨ mode = "fts" then db.ftsHits env q scope (askedType entityType) limit else []
  let result := (dedupChunks out).take limit
  return ⟨result, result.length, mode, false⟩

/-- A citation of an answer. -/
structure Citation (S : Type) where
  docRef : String
  chunkRef : String
  score : S
  deriving DecidableEq

/-- A hit as a citation. -/
def citation (h : EmbeddingHit S) : Citation S :=
  ⟨h.docRef, h.chunkRef, env.round6 h.score⟩

/-- A result of `kb_answer`. -/
structure AnswerResult (S : Type) where
  answer : String
  citations : List (Citation S)
  failClosed : Bool
  deriving DecidableEq

/-- `kb_answer`, with the text that `EchoLLMClient` completes. -/
def kbAnswer (db : KbDb F) (user : Actor) (q : String) (limit : ℕ) (entityType : Option String) :
    Except PyErr (AnswerResult S) := do
  db.requireFeature "ai.kb_assist"
  user.requirePerm "ai:use"
  let scope := db.scopeFor user (askedType entityType)
  if emptyScope scope = true then return ⟨"", [], true⟩
  let hits ← db.queryStore env (env.embed q) scope limit
  let citations := hits.map (citation env)
  let context := String.intercalate "; " (citations.map Citation.chunkRef)
  let text := "[suggestion:kb_answer] 问题: " ++ q ++ "\n依据: " ++ context
  return ⟨String.ofList (Json.strip text.toList), citations, false⟩

/-! ### Tickets -/

/-- `_get_visible_ticket`. -/
def KbDb.visibleTicket (db : KbDb F) (user : Actor) (ticketId : ℕ) : Except PyErr AiTicket :=
  match db.tickets.find? fun t => decide (t.id = ticketId) with
  | none => .error (.notFound "ticket not found")
  | some t =>
      if user.isAdmin || t.allowed user then .ok t else .error (.notFound "ticket not found")

/-- `ticket_similar`: the tickets of the result. -/
def ticketSimilar (db : KbDb F) (user : Actor) (ticketId limit : ℕ) :
    Except PyErr (List AiTicket) := do
  db.requireFeature "ai.ticket_assist"
  user.requirePerm "ai:use"
  let t ← db.visibleTicket user ticketId
  let rows := db.tickets.filter fun r => decide (r.category = t.category ∧ r.id ≠ t.id)
  return (ranked AiTicket.id rows).take limit

/-! ### Where results come from -/

section Results

variable {env} {db : KbDb F} {user : Actor} {q mode : String} {limit : ℕ}
  {scope : Option ScopeFilter} {entityType : Option String}

omit [Zero S] in
theorem mem_of_mem_best {hits : List (EmbeddingHit S)} {h : EmbeddingHit S}
    (hmem : h ∈ best hits limit) : h ∈ hits :=
  ((ranked_isRanking EmbeddingHit.score hits).perm.mem_iff).mp (List.mem_of_mem_take hmem)

omit [Zero S] in
theorem mem_best_of_length {hits : List (EmbeddingHit S)} {h : EmbeddingHit S} (hmem : h ∈ hits)
    (hlimit : hits.length ≤ limit) : h ∈ best hits limit := by
  have hperm := (ranked_isRanking EmbeddingHit.score hits).perm
  rw [best, List.take_of_length_le (hperm.length_eq.trans_le hlimit)]
  exact hperm.mem_iff.mpr hmem

omit [Zero S] in
theorem row_of_hit {queryVector : List F} {hits : List (EmbeddingHit S)}
    (h : db.queryStore env queryVector scope limit = .ok hits) {hit : EmbeddingHit S}
    (hmem : hit ∈ hits) : ∃ row ∈ db.embeddings.select scope, row.docRef = hit.docRef := by
  unfold KbDb.queryStore at h
  cases hstore : db.resolveStoreConfig with
  | error e =>
      rw [hstore] at h
      cases h
  | ok kind =>
      rw [hstore] at h
      cases kind with
      | pgArray =>
          rw [← Except.ok.inj h] at hmem
          obtain ⟨row, hrow, rfl⟩ := List.mem_map.mp (mem_of_mem_best (mem_of_mem_best hmem))
          exact ⟨row, hrow, rfl⟩
      | inMemory =>
          rw [← Except.ok.inj h] at hmem
          obtain ⟨record, hrecord, -⟩ := List.mem_map.mp (mem_of_mem_best (mem_of_mem_best hmem))
          cases (List.mem_filter.mp hrecord).1

/-- An article whose id is in scope. -/
def InScopeArticle (scope : Option ScopeFilter) (a : KbArticle) : Prop :=
  ∀ s, scope = some s → ∃ raw ∈ s.entityIds, Json.parseInt raw = some (a.id : ℤ)

omit [LinearOrder S] in
theorem article_of_fts {et : String} {item : SearchItem S}
    (hmem : item ∈ db.ftsHits env q scope et limit) :
    et = "kb" ∧ ∃ a ∈ db.articles, toString a.id = item.docRef ∧ InScopeArticle scope a := by
  unfold KbDb.ftsHits at hmem
  split_ifs at hmem with het
  · obtain ⟨a, ha, rfl⟩ := List.mem_map.mp hmem
    have hmatch := ((ranked_isRanking KbArticle.id _).perm.mem_iff).mp (List.mem_of_mem_take ha)
    obtain ⟨harticle, hcond⟩ := List.mem_filter.mp hmatch
    refine ⟨het, a, harticle, rfl, fun s hs => ?_⟩
    rw [hs, Bool.and_eq_true] at hcond
    exact of_decide_eq_true hcond.2
  · cases hmem

omit [LinearOrder S] [Zero S] in
theorem mem_of_mem_dedupChunks {items : List (SearchItem S)} {item : SearchItem S}
    (hmem : item ∈ dedupChunks items) : item ∈ items := by
  have hfold (acc : List (SearchItem S)) (rest : List (SearchItem S))
      (h : item ∈ rest.foldl (fun acc item =>
        if acc.any fun i => decide (i.chunkRef = item.chunkRef) then acc else acc ++ [item]) acc) :
      item ∈ acc ∨ item ∈ rest := by
    induction rest generalizing acc with
    | nil => exact Or.inl h
    | cons next rest ih =>
        rw [List.foldl_cons] at h
        rcases ih _ h with hacc | hrest
        · split_ifs at hacc with hknown
          · exact Or.inl hacc
          · rcases List.mem_append.mp hacc with hacc | hnext
            · exact Or.inl hacc
            · exact Or.inr (List.mem_cons.mpr (Or.inl (List.mem_singleton.mp hnext)))
        · exact Or.inr (List.mem_cons_of_mem next hrest)
  exact (hfold [] items hmem).resolve_left List.not_mem_nil

/-- **What a search returns.** -/
theorem docRef_of_search {r : SearchResult S}
    (h : kbSemanticSearch env db user q mode limit entityType = .ok r) {item : SearchItem S}
    (hmem : item ∈ r.list) :
    (∃ row ∈ db.embeddings.select (db.scopeFor user (askedType entityType)),
        row.docRef = item.docRef) ∨
      (askedType entityType = "kb" ∧ ∃ a ∈ db.articles, toString a.id = item.docRef ∧
        InScopeArticle (db.scopeFor user (askedType entityType)) a) := by
  obtain ⟨-, -, h⟩ := bind_eq_ok.mp h
  obtain ⟨-, -, h⟩ := bind_eq_ok.mp h
  dsimp only at h
  by_cases hempty : emptyScope (db.scopeFor user (askedType entityType)) = true
  · rw [if_pos hempty] at h
    rw [← Except.ok.inj h] at hmem
    cases hmem
  · rw [if_neg hempty] at h
    obtain ⟨hits, hhits, h⟩ := bind_eq_ok.mp h
    rw [← Except.ok.inj h] at hmem
    have hout := mem_of_mem_dedupChunks (List.mem_of_mem_take hmem)
    rcases List.mem_append.mp hout with hvector | hfts
    · obtain ⟨hit, hhit, rfl⟩ := List.mem_map.mp hvector
      exact Or.inl (row_of_hit hhits hhit)
    · split_ifs at hfts with hmode
      · exact Or.inr (article_of_fts hfts)
      · cases hfts

omit [Zero S] in
/-- An answer cites nothing for an empty scope, and otherwise what the store finds. -/
theorem kbAnswer_ok {r : AnswerResult S} (h : kbAnswer env db user q limit entityType = .ok r) :
    (emptyScope (db.scopeFor user (askedType entityType)) = true ∧ r.citations = []) ∨
      ∃ hits, db.queryStore env (env.embed q) (db.scopeFor user (askedType entityType)) limit =
        .ok hits ∧ r.citations = hits.map (citation env) := by
  obtain ⟨-, -, h⟩ := bind_eq_ok.mp h
  obtain ⟨-, -, h⟩ := bind_eq_ok.mp h
  dsimp only at h
  split_ifs at h with hempty
  · rw [← Except.ok.inj h]
    exact Or.inl ⟨hempty, rfl⟩
  · obtain ⟨hits, hhits, h⟩ := bind_eq_ok.mp h
    rw [← Except.ok.inj h]
    exact Or.inr ⟨hits, hhits, rfl⟩

omit [Zero S] in
/-- **What an answer cites.** -/
theorem docRef_of_answer {r : AnswerResult S} (h : kbAnswer env db user q limit entityType = .ok r)
    {c : Citation S} (hmem : c ∈ r.citations) :
    ∃ row ∈ db.embeddings.select (db.scopeFor user (askedType entityType)),
      row.docRef = c.docRef := by
  rcases kbAnswer_ok h with ⟨-, hnone⟩ | ⟨hits, hhits, hcitations⟩
  · rw [hnone] at hmem
    cases hmem
  · rw [hcitations] at hmem
    obtain ⟨hit, hhit, rfl⟩ := List.mem_map.mp hmem
    exact row_of_hit hhits hhit

/-- **Which tickets are similar**: others of the category of a ticket that is found. -/
theorem ticket_of_similar {ticketId : ℕ} {tickets : List AiTicket}
    (h : ticketSimilar db user ticketId limit = .ok tickets) {r : AiTicket} (hmem : r ∈ tickets) :
    ∃ t ∈ db.tickets, t.id = ticketId ∧ r ∈ db.tickets ∧ r.category = t.category ∧ r.id ≠ t.id := by
  obtain ⟨-, -, h⟩ := bind_eq_ok.mp h
  obtain ⟨-, -, h⟩ := bind_eq_ok.mp h
  obtain ⟨t, ht, h⟩ := bind_eq_ok.mp h
  rw [← Except.ok.inj h] at hmem
  have hrow := ((ranked_isRanking AiTicket.id _).perm.mem_iff).mp (List.mem_of_mem_take hmem)
  obtain ⟨hr, hcond⟩ := List.mem_filter.mp hrow
  obtain ⟨hcategory, hne⟩ := of_decide_eq_true hcond
  unfold KbDb.visibleTicket at ht
  cases hfind : db.tickets.find? fun t => decide (t.id = ticketId) with
  | none =>
      rw [hfind] at ht
      cases ht
  | some found =>
      simp only [hfind] at ht
      split_ifs at ht
      obtain rfl := Except.ok.inj ht
      exact ⟨found, List.mem_of_find?_eq_some hfind,
        of_decide_eq_true (List.find?_some (p := fun t : AiTicket => decide (t.id = ticketId)) hfind),
        hr, hcategory, hne⟩

end Results

end LarkPlat
