import LarkPlat.Json
import LarkPlat.Ranking
import Mathlib.Data.Finset.Basic

/-!
# Scoped Retrieval

`embedding_store.py`: embedded chunks of the knowledge base, each with the ids of the entities that
may find it. A query names a scope and gets the best chunks inside it. There are two stores. The one
in memory filters its rows in Python and the one in PostgreSQL in its statement, and both sort and
cut twice, once where the candidates are collected and once in the interface's `query`.

The score is a function of the two vectors into a linear order, so `_cosine` is a parameter. The
statement has no order of its own: its rows come as they were inserted.

## Main results

* `InMemoryEmbeddingStore.candidates_eq`, `PostgresArrayEmbeddingStore.candidates_eq`: either store
  collects the best hits of the records in scope.
* `EmbeddingStore.query_eq`: the second sort and cut change nothing.
* `retrieval_exact`: both stores return the first hits of the ranking of the records in scope,
  whatever is stored beside them.
-/

namespace LarkPlat

open Ranking

/-! ### Records, scopes and hits -/

/-- A record as `upsert` is given it: `row.get` of its five keys. Its scope, where it has one, is a
list of strings. -/
structure EmbeddingRecord (F : Type) where
  docRef : Option Json
  chunkRef : Option Json
  embedding : Option (List F)
  entityScope : Option (List String)
  dim : Option ℤ

/-- Which entity ids may be returned. -/
structure ScopeFilter where
  entityType : String
  entityIds : Finset String

/-- One retrieved chunk. -/
structure EmbeddingHit (S : Type) where
  docRef : String
  chunkRef : String
  score : S
  dim : ℤ
deriving DecidableEq

variable {F S : Type} [LinearOrder S] (cosine : List F → List F → S)

namespace EmbeddingRecord

/-- `str(row.get("doc_ref", ""))`. -/
def docText (row : EmbeddingRecord F) : String :=
  (row.docRef.getD (.str "")).pyStr

/-- `str(row.get("chunk_ref", ""))`. -/
def chunkText (row : EmbeddingRecord F) : String :=
  (row.chunkRef.getD (.str "")).pyStr

/-- `row.get("embedding") or []`. -/
def vector (row : EmbeddingRecord F) : List F :=
  row.embedding.getD []

/-- `int(row.get("dim") or len(row.get("embedding") or []))`. -/
def dimension (row : EmbeddingRecord F) : ℤ :=
  match row.dim with
  | some d => if d = 0 then row.vector.length else d
  | none => row.vector.length

/-- The hit that a record is for a query. -/
def hit (queryVector : List F) (row : EmbeddingRecord F) : EmbeddingHit S :=
  ⟨row.docText, row.chunkText, cosine queryVector row.vector, row.dimension⟩

/-- The record may be found under the scope: there is none, or the two share an id. -/
def InScope (scope : Option ScopeFilter) (row : EmbeddingRecord F) : Prop :=
  ∀ s, scope = some s → ∃ ids, row.entityScope = some ids ∧ ∃ i ∈ ids, i ∈ s.entityIds

end EmbeddingRecord

/-! ### The interface -/

/-- `_candidates` of a store: what it collects for a query vector, a scope and a limit. -/
abbrev Candidates (F S : Type) := List F → Option ScopeFilter → ℕ → List (EmbeddingHit S)

/-- `sorted(hits, key=lambda h: h.score, reverse=True)[:limit]`. -/
def best (hits : List (EmbeddingHit S)) (limit : ℕ) : List (EmbeddingHit S) :=
  (ranked EmbeddingHit.score hits).take limit

/-- `EmbeddingStore.query`. -/
def EmbeddingStore.query (candidates : Candidates F S) (queryVector : List F)
    (scope : Option ScopeFilter) (limit : ℕ) : List (EmbeddingHit S) :=
  best (candidates queryVector scope limit) limit

/-- What is sorted and cut twice is sorted and cut once. -/
theorem EmbeddingStore.query_eq {candidates : Candidates F S} {queryVector : List F}
    {scope : Option ScopeFilter} {limit : ℕ} {hits : List (EmbeddingHit S)}
    (h : candidates queryVector scope limit = best hits limit) :
    EmbeddingStore.query candidates queryVector scope limit = best hits limit := by
  rw [EmbeddingStore.query, h, best, best, ranked_take, List.take_take, Nat.min_self]

/-! ### The store in memory -/

/-- `_overlaps`, for a scope that is absent or a list. -/
def overlaps (recordScope : Option (List String)) (scope : Option ScopeFilter) : Bool :=
  match scope with
  | none => true
  | some scope =>
      if scope.entityIds = ∅ then
        false
      else
        match recordScope with
        | none => false
        | some ids => decide (ids.toFinset ∩ scope.entityIds ≠ ∅)

/-- `_overlaps` decides whether a record is in scope. An empty scope shares no id. -/
theorem overlaps_iff (row : EmbeddingRecord F) (scope : Option ScopeFilter) :
    overlaps row.entityScope scope = true ↔ row.InScope scope := by
  unfold overlaps EmbeddingRecord.InScope
  cases scope with
  | none => simp
  | some scope =>
      by_cases hempty : scope.entityIds = ∅
      · simp [hempty]
      · cases hscope : row.entityScope with
        | none => simp [hempty]
        | some ids =>
            simp [hempty, ← Finset.nonempty_iff_ne_empty, Finset.Nonempty]

instance (scope : Option ScopeFilter) : DecidablePred fun row : EmbeddingRecord F =>
    row.InScope scope :=
  fun row => decidable_of_iff _ (overlaps_iff row scope)

/-- `InMemoryEmbeddingStore`: its list of rows. -/
structure InMemoryEmbeddingStore (F : Type) where
  rows : List (EmbeddingRecord F)

namespace InMemoryEmbeddingStore

/-- `upsert`: the rows are appended. -/
def upsert (st : InMemoryEmbeddingStore F) (records : List (EmbeddingRecord F)) :
    InMemoryEmbeddingStore F :=
  ⟨st.rows ++ records⟩

/-- `_candidates`. -/
def candidates (st : InMemoryEmbeddingStore F) : Candidates F S := fun queryVector scope limit =>
  best ((st.rows.filter fun row => overlaps row.entityScope scope).map
    (EmbeddingRecord.hit cosine queryVector)) limit

/-- The store after some batches. -/
def upserts (st : InMemoryEmbeddingStore F) (batches : List (List (EmbeddingRecord F))) :
    InMemoryEmbeddingStore F :=
  batches.foldl upsert st

end InMemoryEmbeddingStore

/-! ### The store in PostgreSQL -/

/-- A row of `kb_embedding`, as far as the statement reads it. -/
structure KbEmbedding (F : Type) where
  docRef : String
  chunkRef : String
  embedding : List F
  entityScope : List String
  dim : ℤ

namespace KbEmbedding

/-- The row that `upsert` adds for a record. -/
def ofRecord (row : EmbeddingRecord F) : KbEmbedding F where
  docRef := row.docText
  chunkRef := row.chunkText
  embedding := row.vector
  entityScope := row.entityScope.getD []
  dim := row.dimension

/-- What the columns take: texts of at most 64 and 128 characters and an integer of 32 bits. -/
def Fits (row : KbEmbedding F) : Prop :=
  row.docRef.length ≤ 64 ∧ row.chunkRef.length ≤ 128 ∧ -2 ^ 31 ≤ row.dim ∧ row.dim < 2 ^ 31

instance (row : KbEmbedding F) : Decidable row.Fits :=
  inferInstanceAs (Decidable (_ ∧ _ ∧ _ ∧ _))

/-- The hit that a row is for a query. -/
def hit (queryVector : List F) (row : KbEmbedding F) : EmbeddingHit S :=
  ⟨row.docRef, row.chunkRef, cosine queryVector row.embedding, row.dim⟩

/-- `EXISTS (SELECT 1 FROM jsonb_array_elements_text(entity_scope) WHERE value IN (ids))`. -/
def exists_in (ids : Finset String) (row : KbEmbedding F) : Bool :=
  row.entityScope.any fun value => decide (value ∈ ids)

end KbEmbedding

/-- `PostgresArrayEmbeddingStore`: the rows that its session sees. -/
structure PostgresArrayEmbeddingStore (F : Type) where
  rows : List (KbEmbedding F)

namespace PostgresArrayEmbeddingStore

/-- `upsert`: the rows are added and flushed, and a row that the columns do not take raises. -/
def upsert (st : PostgresArrayEmbeddingStore F) (records : List (EmbeddingRecord F)) :
    Except String (PostgresArrayEmbeddingStore F) :=
  if ∀ row ∈ records, (KbEmbedding.ofRecord row).Fits then
    .ok ⟨st.rows ++ records.map KbEmbedding.ofRecord⟩
  else
    .error "DataError"

/-- The rows that the statement selects. -/
def select (st : PostgresArrayEmbeddingStore F) (scope : Option ScopeFilter) :
    List (KbEmbedding F) :=
  match scope with
  | none => st.rows
  | some scope =>
      if scope.entityIds = ∅ then [] else st.rows.filter (KbEmbedding.exists_in scope.entityIds)

/-- `_candidates`. -/
def candidates (st : PostgresArrayEmbeddingStore F) : Candidates F S :=
  fun queryVector scope limit =>
    best ((st.select scope).map (KbEmbedding.hit cosine queryVector)) limit

/-- The store after some batches, all of which it took. -/
def upserts (st : PostgresArrayEmbeddingStore F) (batches : List (List (EmbeddingRecord F))) :
    Except String (PostgresArrayEmbeddingStore F) :=
  batches.foldlM upsert st

end PostgresArrayEmbeddingStore

/-! ### What either store collects -/

/-- The records in scope, in the order of the scan. -/
def inScope (scope : Option ScopeFilter) (records : List (EmbeddingRecord F)) :
    List (EmbeddingRecord F) :=
  records.filter fun row => decide (row.InScope scope)

/-- The hits of the records in scope. -/
def inScopeHits (queryVector : List F) (scope : Option ScopeFilter)
    (records : List (EmbeddingRecord F)) : List (EmbeddingHit S) :=
  (inScope scope records).map (EmbeddingRecord.hit cosine queryVector)

namespace InMemoryEmbeddingStore

theorem upserts_rows (st : InMemoryEmbeddingStore F) (batches : List (List (EmbeddingRecord F))) :
    (st.upserts batches).rows = st.rows ++ batches.flatten := by
  induction batches generalizing st with
  | nil => exact (List.append_nil _).symm
  | cons batch batches ih =>
      rw [upserts, List.foldl_cons, List.flatten_cons, ← List.append_assoc]
      exact ih (st.upsert batch)

/-- **The store in memory collects the best hits in scope.** -/
theorem candidates_eq (st : InMemoryEmbeddingStore F) (queryVector : List F)
    (scope : Option ScopeFilter) (limit : ℕ) :
    st.candidates cosine queryVector scope limit =
      best (inScopeHits cosine queryVector scope st.rows) limit := by
  have hsame : (fun row : EmbeddingRecord F => overlaps row.entityScope scope) =
      fun row => decide (row.InScope scope) :=
    funext fun row => Bool.eq_iff_iff.mpr ((overlaps_iff row scope).trans decide_eq_true_iff.symm)
  rw [candidates, inScopeHits, inScope, hsame]

end InMemoryEmbeddingStore

namespace KbEmbedding

/-- The predicate holds of the row of a record in scope. A record without a scope has the empty one
in its row, which no id is in. -/
theorem exists_in_iff (s : ScopeFilter) (row : EmbeddingRecord F) :
    (ofRecord row).exists_in s.entityIds = true ↔ row.InScope (some s) := by
  rw [exists_in, EmbeddingRecord.InScope, ofRecord]
  cases row.entityScope with
  | none => simp
  | some ids => simp

end KbEmbedding

namespace PostgresArrayEmbeddingStore

theorem upserts_rows {st st' : PostgresArrayEmbeddingStore F}
    {batches : List (List (EmbeddingRecord F))} (h : st.upserts batches = .ok st') :
    st'.rows = st.rows ++ batches.flatten.map KbEmbedding.ofRecord := by
  induction batches generalizing st with
  | nil =>
      rw [← Except.ok.inj h]
      exact (List.append_nil _).symm
  | cons batch batches ih =>
      rw [upserts, List.foldlM_cons] at h
      by_cases hfits : ∀ row ∈ batch, (KbEmbedding.ofRecord row).Fits
      · rw [upsert, if_pos hfits] at h
        rw [ih h, List.flatten_cons, List.map_append, List.append_assoc]
      · rw [upsert, if_neg hfits] at h
        cases h

theorem select_eq {st : PostgresArrayEmbeddingStore F} {records : List (EmbeddingRecord F)}
    (h : st.rows = records.map KbEmbedding.ofRecord) (scope : Option ScopeFilter) :
    st.select scope = (inScope scope records).map KbEmbedding.ofRecord := by
  cases scope with
  | none =>
      have hall : inScope none records = records :=
        List.filter_eq_self.mpr fun row _ => decide_eq_true fun s hs => nomatch hs
      rw [hall]
      exact h
  | some s =>
      by_cases hempty : s.entityIds = ∅
      · have hnone : inScope (some s) records = [] := by
          refine List.filter_eq_nil_iff.mpr fun row _ hin => ?_
          obtain ⟨ids, -, i, -, hi⟩ := of_decide_eq_true hin s rfl
          rw [hempty] at hi
          exact absurd hi (Finset.notMem_empty i)
        rw [hnone, select]
        exact if_pos hempty
      · rw [select]
        refine (if_neg hempty).trans ?_
        rw [h, List.filter_map, inScope]
        congr 1
        refine List.filter_congr fun row _ => Bool.eq_iff_iff.mpr ?_
        exact (KbEmbedding.exists_in_iff s row).trans decide_eq_true_iff.symm

/-- **The store in PostgreSQL collects the best hits in scope.** -/
theorem candidates_eq {st : PostgresArrayEmbeddingStore F} {records : List (EmbeddingRecord F)}
    (h : st.rows = records.map KbEmbedding.ofRecord) (queryVector : List F)
    (scope : Option ScopeFilter) (limit : ℕ) :
    st.candidates cosine queryVector scope limit =
      best (inScopeHits cosine queryVector scope records) limit := by
  rw [candidates, select_eq h, List.map_map]
  rfl

end PostgresArrayEmbeddingStore

/-! ### Queries -/

/-- The store in memory returns the hits of the best records in scope. -/
theorem InMemoryEmbeddingStore.query_eq (batches : List (List (EmbeddingRecord F)))
    (queryVector : List F) (scope : Option ScopeFilter) (limit : ℕ) :
    EmbeddingStore.query ((upserts ⟨[]⟩ batches).candidates cosine) queryVector scope limit =
      best (inScopeHits cosine queryVector scope batches.flatten) limit := by
  have h := (upserts ⟨[]⟩ batches).candidates_eq cosine queryVector scope limit
  rw [upserts_rows, List.nil_append] at h
  exact EmbeddingStore.query_eq h

theorem best_hits {queryVector : List F} {records r : List (EmbeddingRecord F)} (limit : ℕ)
    (h : IsRanking (fun row => cosine queryVector row.vector) records r) :
    best (records.map (EmbeddingRecord.hit cosine queryVector)) limit =
      (r.take limit).map (EmbeddingRecord.hit cosine queryVector) := by
  have hhits : IsRanking EmbeddingHit.score (records.map (EmbeddingRecord.hit cosine queryVector))
      (r.map (EmbeddingRecord.hit cosine queryVector)) := IsRanking.map h
  rw [best, ← isRanking_iff.mp hhits, List.map_take]

/-- **Scoped retrieval.** The store in memory returns the first hits of a ranking of the records in
scope, its answer depends on no other record, and the store in PostgreSQL gives the same answer
wherever it took the records. -/
theorem retrieval_exact (batches : List (List (EmbeddingRecord F))) (queryVector : List F)
    (scope : Option ScopeFilter) (limit : ℕ) :
    (∃ r, IsRanking (fun row => cosine queryVector row.vector) (inScope scope batches.flatten) r ∧
        EmbeddingStore.query ((InMemoryEmbeddingStore.upserts ⟨[]⟩ batches).candidates cosine)
          queryVector scope limit = (r.take limit).map (EmbeddingRecord.hit cosine queryVector)) ∧
      (∀ others : List (List (EmbeddingRecord F)),
        inScope scope others.flatten = inScope scope batches.flatten →
        EmbeddingStore.query ((InMemoryEmbeddingStore.upserts ⟨[]⟩ others).candidates cosine)
            queryVector scope limit =
          EmbeddingStore.query ((InMemoryEmbeddingStore.upserts ⟨[]⟩ batches).candidates cosine)
            queryVector scope limit) ∧
      ∀ pg, PostgresArrayEmbeddingStore.upserts ⟨[]⟩ batches = .ok pg →
        EmbeddingStore.query (pg.candidates cosine) queryVector scope limit =
          EmbeddingStore.query ((InMemoryEmbeddingStore.upserts ⟨[]⟩ batches).candidates cosine)
            queryVector scope limit := by
  refine ⟨⟨_, ranked_isRanking _ _, ?_⟩, fun others hsame => ?_, fun pg hpg => ?_⟩
  · rw [InMemoryEmbeddingStore.query_eq]
    exact best_hits cosine limit (ranked_isRanking _ _)
  · rw [InMemoryEmbeddingStore.query_eq, InMemoryEmbeddingStore.query_eq, inScopeHits, hsame,
      ← inScopeHits]
  · have hrows := PostgresArrayEmbeddingStore.upserts_rows hpg
    rw [List.nil_append] at hrows
    rw [InMemoryEmbeddingStore.query_eq]
    exact EmbeddingStore.query_eq
      (PostgresArrayEmbeddingStore.candidates_eq cosine hrows queryVector scope limit)

/-- Two chunks of one document, of which the user may find the second. -/
def twoChunks : List (List (EmbeddingRecord ℤ)) :=
  [[⟨some (.str "1"), some (.str "article:1:0"), some [3], some ["1"], some 1⟩],
    [⟨some (.str "2"), some (.str "article:2:0"), some [2], some ["2", "9"], none⟩]]

/-- The better chunk is out of scope, and the other is returned without it by both stores. -/
theorem one_in_scope :
    let cosine : List ℤ → List ℤ → ℤ := fun a b => a.sum * b.sum
    let scope : ScopeFilter := ⟨"kb", {"9"}⟩
    ∃ pg, PostgresArrayEmbeddingStore.upserts ⟨[]⟩ twoChunks = .ok pg ∧
      EmbeddingStore.query (pg.candidates cosine) [1] (some scope) 1 =
        EmbeddingStore.query ((InMemoryEmbeddingStore.upserts ⟨[]⟩ twoChunks).candidates cosine)
          [1] (some scope) 1 ∧
      EmbeddingStore.query ((InMemoryEmbeddingStore.upserts ⟨[]⟩ twoChunks).candidates cosine)
          [1] (some scope) 1 = [⟨"2", "article:2:0", 2, 1⟩] := by
  intro cosine scope
  obtain ⟨-, -, hpg⟩ := retrieval_exact cosine twoChunks [1] (some scope) 1
  refine ⟨_, rfl, hpg _ rfl, ?_⟩
  decide +kernel

end LarkPlat
