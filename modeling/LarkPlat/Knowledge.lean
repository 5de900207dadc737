import LarkPlat.EmbeddingStore
import LarkPlat.Terminals
import LarkPlat.Visibility

/-!
# Articles and their Embeddings

`kb_service.py` and `kb_ingestion.py`: an article has a visibility and append-only versions. While
`ai.kb_assist` is on, each call that adds a version replaces the embedded chunks of the article, and
every chunk carries the ids that may find it: the article's own, and for a public article a token
that every scope contains. A call that raises is rolled back.

The embedding of a text is a parameter. The text columns of an article take what its schema takes,
and deleting an article deletes its versions with it.

## Main results

* `ingestArticle_ok`: what ingestion leaves in the store.
* `createArticle_ok`, `updateArticle_ok`, `rollbackArticle_ok`, `deleteArticle_ok`: what each call
  leaves of the articles and the store.
-/

namespace LarkPlat

/-! ### Rows -/

/-- The visibilities of an article: `public`, `internal` and `classified`. -/
inductive KbVisibility
  | pub | internal | classified
  deriving DecidableEq, Repr

/-- A visibility that is named in a payload. -/
def KbVisibility.parse (s : String) : Option KbVisibility :=
  if s = "public" then some .pub
  else if s = "internal" then some .internal
  else if s = "classified" then some .classified
  else none

/-- A row of `kb_article`. -/
structure KbArticle where
  id : ℕ
  title : String
  categoryId : Option ℕ
  visibility : KbVisibility
  currentVersion : ℕ
  authorId : Option ℕ
  summary : String
  deriving DecidableEq

/-- A row of `kb_article_version`. -/
structure KbArticleVersion where
  articleId : ℕ
  version : ℕ
  title : String
  content : String
  changeLog : String
  editorId : ℕ
  deriving DecidableEq

/-- The columns of `ticket` that are compared or returned. -/
structure AiTicket where
  id : ℕ
  ticketNo : String
  title : String
  category : String
  status : String
  requesterId : Option ℕ
  assigneeId : Option ℕ
  teamId : Option ℕ
  deriving DecidableEq

/-- The tables around the knowledge base. `flags` are the truth values of the feature rules,
`storeValue` is the value of the rule `ai.embedding_store`, and `ticketRefs` are the articles that
tickets refer to. -/
structure KbDb (F : Type) where
  articles : List KbArticle
  versions : List KbArticleVersion
  nextArticle : ℕ
  embeddings : PostgresArrayEmbeddingStore F
  categories : List ℕ
  ticketRefs : List ℕ
  tickets : List AiTicket
  hosts : List AssetHost
  flags : String → Bool
  storeValue : String
  prod : Bool

variable {F : Type} (embed : String → List F)

/-- `require_feature` of a flag. -/
def KbDb.requireFeature (db : KbDb F) (flag : String) : Except PyErr Unit :=
  if db.flags flag then .ok () else .error (.badRequest "feature disabled")

/-- `_get_article`. -/
def KbDb.getArticle (db : KbDb F) (id : ℕ) : Except PyErr KbArticle :=
  match db.articles.find? fun a => decide (a.id = id) with
  | some article => .ok article
  | none => .error (.notFound "article not found")

/-- A version of an article. -/
def KbDb.version? (db : KbDb F) (articleId version : ℕ) : Option KbArticleVersion :=
  db.versions.find? fun v => decide (v.articleId = articleId ∧ v.version = version)

/-- `_visible`. -/
def requireVisible (user : Actor) (article : KbArticle) : Except PyErr Unit :=
  if article.visibility = .classified ∧ user.isAdmin = false then
    .error (.notFound "article not found")
  else .ok ()

/-! ### Ingestion -/

/-- `GLOBAL_SCOPE_TOKEN`. -/
def globalScopeToken : String := "__public__"

/-- `_MAX_EMBED_CHUNKS`. -/
def maxEmbedChunks : ℕ := 200

/-- `_chunk_text` on characters: pieces of `size`, of which there are no more than characters. -/
def chunkChars (size : ℕ) : ℕ → List Char → List (List Char)
  | 0, _ => []
  | _ + 1, [] => []
  | fuel + 1, cs => cs.take size :: chunkChars size fuel (cs.drop size)

/-- `_chunk_text` with the default size. -/
def chunkText (text : String) : List String :=
  (chunkChars 512 text.toList.length text.toList).map String.ofList

/-- `_entity_scope`, which sorts the digits before the token. -/
def entityScope (article : KbArticle) : List String :=
  if article.visibility = .pub then [toString article.id, globalScopeToken]
  else [toString article.id]

/-- The record of one chunk. -/
def chunkRecord (article : KbArticle) (idx : ℕ) (vector : List F) : EmbeddingRecord F where
  docRef := some (.str (toString article.id))
  chunkRef := some (.str ("article:" ++ toString article.id ++ ":" ++ toString idx))
  embedding := some vector
  entityScope := some (entityScope article)
  dim := some vector.length

/-- The records of an article for a version of it. -/
def articleRecords (article : KbArticle) (content : String) : List (EmbeddingRecord F) :=
  (((chunkText content).take maxEmbedChunks).map embed).mapIdx (chunkRecord article)

/-- The kinds of store that may be configured. -/
inductive StoreKind
  | pgArray | inMemory
  deriving DecidableEq

/-- `resolve_store_config`: no value stands for `pg_array`, another one raises, and so does the
store in memory in production. -/
def KbDb.resolveStoreConfig (db : KbDb F) : Except PyErr StoreKind :=
  if db.storeValue = "" ∨ db.storeValue = "pg_array" then .ok .pgArray
  else if db.storeValue = "in_memory" then
    if db.prod then .error .valueError else .ok .inMemory
  else .error .valueError

/-- The store without the chunks of an article. -/
def KbDb.dropChunks (db : KbDb F) (docRef : String) : PostgresArrayEmbeddingStore F :=
  ⟨db.embeddings.rows.filter fun row => decide (row.docRef ≠ docRef)⟩

/-- `ingest_article`. The store in memory that is built for the call is gone after it. -/
def ingestArticle (db : KbDb F) (article : KbArticle) (version : KbArticleVersion) :
    Except PyErr (KbDb F) :=
  let dropped := { db with embeddings := db.dropChunks (toString article.id) }
  let records := articleRecords embed article version.content
  if records = [] then .ok dropped
  else
    match db.resolveStoreConfig with
    | .error e => .error e
    | .ok .inMemory => .ok dropped
    | .ok .pgArray =>
        match dropped.embeddings.upsert records with
        | .ok embeddings => .ok { dropped with embeddings := embeddings }
        | .error _ => .error .integrityError

/-- `_maybe_ingest`. -/
def maybeIngest (db : KbDb F) (article : KbArticle) (version : KbArticleVersion) :
    Except PyErr (KbDb F) :=
  if db.flags "ai.kb_assist" then ingestArticle embed db article version else .ok db

/-! ### Articles -/

/-- `KbArticleCreate`. -/
structure KbArticleCreate where
  title : String
  categoryId : Option ℕ
  visibility : String
  content : String
  summary : String
  tags : List String

/-- `KbArticleUpdate`: a field that is absent is not written. -/
structure KbArticleUpdate where
  title : Option String
  categoryId : Option ℕ
  visibility : Option String
  content : Option String
  summary : Option String
  changeLog : String

/-- A category that is named must exist; `0` names none. -/
def KbDb.checkCategory (db : KbDb F) : Option ℕ → Except PyErr Unit
  | some category =>
      if category = 0 ∨ category ∈ db.categories then .ok ()
      else .error (.validation ("category not found: " ++ toString category))
  | none => .ok ()

/-- What the columns of an article take, and those of a version of it. -/
def KbArticle.fits (article : KbArticle) (version : KbArticleVersion) : Bool :=
  decide (article.title.length ≤ 256 ∧ article.summary.length ≤ 512 ∧
    version.changeLog.length ≤ 256)

/-- `create_article`. -/
def createArticle (user : Actor) (data : KbArticleCreate) (db : KbDb F) :
    Except PyErr (KbDb F × KbArticle) := do
  db.requireFeature "feature.kb"
  user.requirePerm "kb:article:add"
  match KbVisibility.parse data.visibility with
  | none => throw (.validation ("invalid visibility: " ++ data.visibility))
  | some visibility =>
      db.checkCategory data.categoryId
      let article : KbArticle :=
        { id := db.nextArticle, title := data.title, categoryId := data.categoryId,
          visibility := visibility, currentVersion := 1, authorId := some user.id,
          summary := data.summary }
      let version : KbArticleVersion :=
        { articleId := article.id, version := 1, title := article.title, content := data.content,
          changeLog := "initial", editorId := user.id }
      if article.fits version = true ∧ data.tags.Nodup ∧ ∀ tag ∈ data.tags, tag.length ≤ 64 then
        let db ← maybeIngest embed
          { db with
            articles := db.articles ++ [article]
            versions := db.versions ++ [version]
            nextArticle := db.nextArticle + 1 } article version
        return (db, article)
      else throw .integrityError

/-- The article and its new version are stored and the version is ingested. -/
def KbDb.addVersion (db : KbDb F) (article : KbArticle) (version : KbArticleVersion) :
    Except PyErr (KbDb F × KbArticle) :=
  if article.fits version = true ∧ (db.version? article.id version.version).isNone = true then do
    let db ← maybeIngest embed
      { db with
        articles := db.articles.map fun a => if a.id = article.id then article else a
        versions := db.versions ++ [version] } article version
    return (db, article)
  else .error .integrityError

/-- The fields that `update_article` sets. -/
def KbArticleUpdate.set (data : KbArticleUpdate) (visibility : Option KbVisibility)
    (article : KbArticle) : KbArticle :=
  { article with
    title := data.title.getD article.title
    categoryId := data.categoryId.or article.categoryId
    visibility := visibility.getD article.visibility
    summary := data.summary.getD article.summary
    currentVersion := article.currentVersion + 1 }

/-- The visibility that an update names, which must be one. -/
def KbArticleUpdate.checkVisibility (data : KbArticleUpdate) :
    Except PyErr (Option KbVisibility) :=
  match data.visibility with
  | none => .ok none
  | some s =>
      match KbVisibility.parse s with
      | some visibility => .ok (some visibility)
      | none => .error (.validation ("invalid visibility: " ++ s))

/-- `update_article`. -/
def updateArticle (user : Actor) (articleId : ℕ) (data : KbArticleUpdate) (db : KbDb F) :
    Except PyErr (KbDb F × KbArticle) := do
  db.requireFeature "feature.kb"
  user.requirePerm "kb:article:edit"
  let article ← db.getArticle articleId
  requireVisible user article
  let visibility ← data.checkVisibility
  db.checkCategory data.categoryId
  let content := data.content.getD
    (((db.version? article.id article.currentVersion).map KbArticleVersion.content).getD "")
  let article := data.set visibility article
  db.addVersion embed article
    { articleId := article.id, version := article.currentVersion, title := article.title,
      content := content, changeLog := data.changeLog, editorId := user.id }

/-- `rollback_article`. -/
def rollbackArticle (user : Actor) (articleId version : ℕ) (db : KbDb F) :
    Except PyErr (KbDb F × KbArticle) := do
  db.requireFeature "feature.kb"
  user.requirePerm "kb:article:rollback"
  let article ← db.getArticle articleId
  requireVisible user article
  match db.version? articleId version with
  | none => throw (.notFound "article version not found")
  | some target =>
      let article := { article with currentVersion := article.currentVersion + 1 }
      db.addVersion embed article
        { articleId := article.id, version := article.currentVersion, title := article.title,
          content := target.content, changeLog := "rollback to v" ++ toString target.version,
          editorId := user.id }

/-- `delete_article`. -/
def deleteArticle (user : Actor) (articleId : ℕ) (db : KbDb F) : Except PyErr (KbDb F) := do
  db.requireFeature "feature.kb"
  user.requirePerm "kb:article:del"
  let article ← db.getArticle articleId
  if articleId ∈ db.ticketRefs then throw (.conflict "article is referenced by a ticket")
  else
    return { db with
      articles := db.articles.filter fun a => decide (a.id ≠ article.id)
      versions := db.versions.filter fun v => decide (v.articleId ≠ article.id) }

/-! ### What the calls leave -/

section Calls

variable {embed} {db db' : KbDb F} {article : KbArticle} {version : KbArticleVersion}

/-- The chunks of an article are gone or hold its scope, and the others are as they were. -/
def Refreshed (db db' : KbDb F) (article : KbArticle) : Prop :=
  ∀ row ∈ db'.embeddings.rows,
    (row ∈ db.embeddings.rows ∧ row.docRef ≠ toString article.id) ∨
      (row.docRef = toString article.id ∧ row.entityScope = entityScope article)

/-- What a call leaves beside the articles and versions that it writes: the chunks refreshed while
`ai.kb_assist` is on, and otherwise as they were. -/
structure Ingests (db db' : KbDb F) (article : KbArticle) : Prop where
  articles : db'.articles = db.articles
  nextArticle : db'.nextArticle = db.nextArticle
  flags : db'.flags = db.flags
  rows : (db.flags "ai.kb_assist" = false ∧ db'.embeddings.rows = db.embeddings.rows) ∨
    (db.flags "ai.kb_assist" = true ∧ Refreshed db db' article)

theorem row_of_articleRecords {content : String} {record : EmbeddingRecord F}
    (h : record ∈ articleRecords embed article content) :
    (KbEmbedding.ofRecord record).docRef = toString article.id ∧
      (KbEmbedding.ofRecord record).entityScope = entityScope article := by
  obtain ⟨i, hi, rfl⟩ := List.mem_mapIdx.mp h
  exact ⟨rfl, rfl⟩

theorem upsert_rows {st st' : PostgresArrayEmbeddingStore F} {records : List (EmbeddingRecord F)}
    (h : st.upsert records = .ok st') :
    st'.rows = st.rows ++ records.map KbEmbedding.ofRecord := by
  rw [PostgresArrayEmbeddingStore.upsert] at h
  split_ifs at h with hfits
  rw [← Except.ok.inj h]

theorem refreshed_dropped :
    Refreshed db { db with embeddings := db.dropChunks (toString article.id) } article := by
  intro row hrow
  obtain ⟨hmem, hne⟩ := List.mem_filter.mp hrow
  exact Or.inl ⟨hmem, of_decide_eq_true hne⟩

/-- **Ingestion** refreshes the chunks of the article and touches no other table. -/
theorem ingestArticle_ok (h : ingestArticle embed db article version = .ok db') :
    Refreshed db db' article ∧ db'.articles = db.articles ∧ db'.nextArticle = db.nextArticle ∧
      db'.flags = db.flags := by
  unfold ingestArticle at h
  by_cases hnone : articleRecords embed article version.content = []
  · simp only [if_pos hnone] at h
    rw [← Except.ok.inj h]
    exact ⟨refreshed_dropped, rfl, rfl, rfl⟩
  · simp only [if_neg hnone] at h
    cases hstore : db.resolveStoreConfig with
    | error e =>
        rw [hstore] at h
        cases h
    | ok kind =>
        rw [hstore] at h
        cases kind with
        | inMemory =>
            rw [← Except.ok.inj h]
            exact ⟨refreshed_dropped, rfl, rfl, rfl⟩
        | pgArray =>
            cases hupsert : (db.dropChunks (toString article.id)).upsert
                (articleRecords embed article version.content) with
            | error e =>
                simp only [hupsert] at h
                cases h
            | ok embeddings =>
                simp only [hupsert] at h
                rw [← Except.ok.inj h]
                refine ⟨fun row hrow => ?_, rfl, rfl, rfl⟩
                rw [upsert_rows hupsert] at hrow
                rcases List.mem_append.mp hrow with hold | hnew
                · exact refreshed_dropped row hold
                · obtain ⟨record, hrecord, rfl⟩ := List.mem_map.mp hnew
                  exact Or.inr (row_of_articleRecords hrecord)

theorem maybeIngest_ok (h : maybeIngest embed db article version = .ok db') :
    Ingests db db' article := by
  unfold maybeIngest at h
  by_cases hflag : db.flags "ai.kb_assist" = true
  · rw [if_pos hflag] at h
    obtain ⟨hrows, harticles, hnext, hflags⟩ := ingestArticle_ok h
    exact ⟨harticles, hnext, hflags, Or.inr ⟨hflag, hrows⟩⟩
  · rw [if_neg hflag] at h
    rw [← Except.ok.inj h]
    exact ⟨rfl, rfl, rfl, Or.inl ⟨Bool.eq_false_of_not_eq_true hflag, rfl⟩⟩

theorem getArticle_ok {id : ℕ} (h : db.getArticle id = .ok article) :
    article ∈ db.articles ∧ article.id = id := by
  unfold KbDb.getArticle at h
  cases hfind : db.articles.find? fun a => decide (a.id = id) with
  | none =>
      rw [hfind] at h
      cases h
  | some found =>
      rw [hfind] at h
      obtain rfl := Except.ok.inj h
      exact ⟨List.mem_of_find?_eq_some hfind,
        of_decide_eq_true (List.find?_some (p := fun a : KbArticle => decide (a.id = id)) hfind)⟩

/-- **`create_article`** adds an article of the next number. -/
theorem createArticle_ok {user : Actor} {data : KbArticleCreate}
    (h : createArticle embed user data db = .ok (db', article)) :
    article.id = db.nextArticle ∧
      ∃ versions, Ingests { db with
        articles := db.articles ++ [article]
        versions := versions
        nextArticle := db.nextArticle + 1 } db' article := by
  obtain ⟨-, -, h⟩ := bind_eq_ok.mp h
  obtain ⟨-, -, h⟩ := bind_eq_ok.mp h
  cases hvisibility : KbVisibility.parse data.visibility with
  | none =>
      rw [hvisibility] at h
      cases h
  | some visibility =>
      rw [hvisibility] at h
      obtain ⟨-, -, h⟩ := bind_eq_ok.mp h
      dsimp only at h
      split_ifs at h with hfits
      obtain ⟨stored, hstored, h⟩ := bind_eq_ok.mp h
      obtain ⟨rfl, rfl⟩ := Prod.mk.inj (Except.ok.inj h)
      exact ⟨rfl, _, maybeIngest_ok hstored⟩

/-- A version that is added goes with its article, which replaces the one of its number. -/
theorem addVersion_ok {article' : KbArticle}
    (h : db.addVersion embed article version = .ok (db', article')) :
    article' = article ∧
      ∃ versions, Ingests { db with
        articles := db.articles.map fun a => if a.id = article.id then article else a
        versions := versions } db' article := by
  unfold KbDb.addVersion at h
  split_ifs at h with hfits
  obtain ⟨stored, hstored, h⟩ := bind_eq_ok.mp h
  obtain ⟨rfl, rfl⟩ := Prod.mk.inj (Except.ok.inj h)
  exact ⟨rfl, _, maybeIngest_ok hstored⟩

/-- A call that adds a version to an article that it found. -/
def AddsVersion (db db' : KbDb F) (articleId : ℕ) (old article : KbArticle) : Prop :=
  old ∈ db.articles ∧ old.id = articleId ∧ article.id = articleId ∧
    ∃ versions, Ingests { db with
      articles := db.articles.map fun a => if a.id = article.id then article else a
      versions := versions } db' article

/-- **`update_article`** replaces the article, with the visibility that it names or the old one. -/
theorem updateArticle_ok {user : Actor} {articleId : ℕ} {data : KbArticleUpdate}
    (h : updateArticle embed user articleId data db = .ok (db', article)) :
    ∃ old, AddsVersion db db' articleId old article ∧
      ((data.visibility = none ∧ article.visibility = old.visibility) ∨
        ∃ s, data.visibility = some s ∧ KbVisibility.parse s = some article.visibility) := by
  obtain ⟨-, -, h⟩ := bind_eq_ok.mp h
  obtain ⟨-, -, h⟩ := bind_eq_ok.mp h
  obtain ⟨old, hold, h⟩ := bind_eq_ok.mp h
  obtain ⟨-, -, h⟩ := bind_eq_ok.mp h
  obtain ⟨visibility, hvisibility, h⟩ := bind_eq_ok.mp h
  obtain ⟨-, -, h⟩ := bind_eq_ok.mp h
  obtain ⟨hmem, hid⟩ := getArticle_ok hold
  obtain ⟨rfl, hingests⟩ := addVersion_ok h
  refine ⟨old, ⟨hmem, hid, hid, hingests⟩, ?_⟩
  unfold KbArticleUpdate.checkVisibility at hvisibility
  cases hnamed : data.visibility with
  | none =>
      rw [hnamed] at hvisibility
      rw [← Except.ok.inj hvisibility]
      exact Or.inl ⟨rfl, rfl⟩
  | some s =>
      simp only [hnamed] at hvisibility
      cases hparse : KbVisibility.parse s with
      | none =>
          rw [hparse] at hvisibility
          cases hvisibility
      | some named =>
          rw [hparse] at hvisibility
          rw [← Except.ok.inj hvisibility]
          exact Or.inr ⟨s, rfl, hparse⟩

/-- **`rollback_article`** replaces the article and leaves its visibility. -/
theorem rollbackArticle_ok {user : Actor} {articleId v : ℕ}
    (h : rollbackArticle embed user articleId v db = .ok (db', article)) :
    ∃ old, AddsVersion db db' articleId old article ∧ article.visibility = old.visibility := by
  obtain ⟨-, -, h⟩ := bind_eq_ok.mp h
  obtain ⟨-, -, h⟩ := bind_eq_ok.mp h
  obtain ⟨old, hold, h⟩ := bind_eq_ok.mp h
  obtain ⟨-, -, h⟩ := bind_eq_ok.mp h
  obtain ⟨hmem, hid⟩ := getArticle_ok hold
  cases htarget : db.version? articleId v with
  | none =>
      rw [htarget] at h
      cases h
  | some target =>
      rw [htarget] at h
      obtain ⟨rfl, hingests⟩ := addVersion_ok h
      exact ⟨old, ⟨hmem, hid, hid, hingests⟩, rfl⟩

/-- **`delete_article`** leaves the chunks of the article. -/
theorem deleteArticle_ok {user : Actor} {articleId : ℕ}
    (h : deleteArticle user articleId db = .ok db') :
    db'.articles = db.articles.filter (fun a => decide (a.id ≠ articleId)) ∧
      db'.nextArticle = db.nextArticle ∧ db'.embeddings = db.embeddings := by
  obtain ⟨-, -, h⟩ := bind_eq_ok.mp h
  obtain ⟨-, -, h⟩ := bind_eq_ok.mp h
  obtain ⟨old, hold, h⟩ := bind_eq_ok.mp h
  obtain ⟨-, rfl⟩ := getArticle_ok hold
  split_ifs at h with hrefs
  rw [← Except.ok.inj h]
  exact ⟨rfl, rfl, rfl⟩

end Calls

end LarkPlat
