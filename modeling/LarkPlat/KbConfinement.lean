import LarkPlat.Machine
import LarkPlat.Retrieval

/-!
# Retrieval within what a User May See

The ids that may find a chunk are copied into it when its article is ingested, and they are matched
later with the ids of whatever domain a search names. A history is a sequence of article calls,
changes of the rules and of the other tables, and searches.

## Main results

* `parseInt_toString`: the number that a text was written from is read back.
* `covered_step`: which calls keep public chunks to articles that all may see.
* `confined_run`: along a history no user who is no administrator is shown a document or ticket that
  the user may not see, if no call leaves public chunks of an article that is gone or classified, no
  search finds chunks by the ids of another domain, and similar tickets are asked for where the
  whole category may be seen.
-/

namespace LarkPlat

open Machine

/-! ### Numbers in texts -/

namespace Json

theorem parseDigits_digits {cs : List Char} (h : ∀ c ∈ cs, c.isDigit = true) (acc : ℕ) :
    parseDigits acc true cs = some (Nat.ofDigitChars 10 cs acc) := by
  induction cs generalizing acc with
  | nil => rfl
  | cons c cs ih =>
      have hdigit := h c List.mem_cons_self
      have hne : c ≠ '_' := by
        rintro rfl
        exact absurd hdigit (by decide)
      rw [parseDigits, if_neg hne, if_pos hdigit, ih fun d hd => h d (List.mem_cons_of_mem c hd),
        Nat.ofDigitChars_cons]
      rfl

theorem isSpace_digit {c : Char} (h : c.isDigit = true) : isSpace c = false := by
  have hrange : 48 ≤ c.toNat ∧ c.toNat ≤ 57 := by
    rw [Char.isDigit, Bool.and_eq_true, decide_eq_true_eq, decide_eq_true_eq] at h
    exact ⟨UInt32.le_iff_toNat_le.mp h.1, UInt32.le_iff_toNat_le.mp h.2⟩
  rw [isSpace]
  simp only [Bool.or_eq_false_iff, decide_eq_false_iff_not]
  refine ⟨⟨⟨?_, ?_⟩, ?_⟩, ?_⟩
  · omega
  · omega
  · simp only [List.mem_cons, List.not_mem_nil, or_false]
    omega
  · omega

theorem strip_digits {cs : List Char} (h : ∀ c ∈ cs, c.isDigit = true) : strip cs = cs := by
  have hdrop (l : List Char) (hl : ∀ c ∈ l, c.isDigit = true) : l.dropWhile isSpace = l := by
    cases l with
    | nil => rfl
    | cons c l => exact List.dropWhile_cons_of_neg (by simp [isSpace_digit (hl c List.mem_cons_self)])
  rw [strip, hdrop cs h, hdrop cs.reverse fun c hc => h c (List.mem_reverse.mp hc),
    List.reverse_reverse]

/-- **The text of a number** is read as the number. -/
theorem parseInt_toString (n : ℕ) : parseInt (toString n) = some (n : ℤ) := by
  have hdigits : ∀ c ∈ Nat.toDigits 10 n, c.isDigit = true := fun c hc =>
    Nat.isDigit_of_mem_toDigits (by decide) (by decide) hc
  have hlist : (toString n).toList = Nat.toDigits 10 n := Nat.toList_repr
  have hvalue : Nat.ofDigitChars 10 (Nat.toDigits 10 n) 0 = n :=
    Nat.ofDigitChars_toDigits (by decide) (by decide)
  rw [parseInt, hlist, strip_digits hdigits]
  cases hcs : Nat.toDigits 10 n with
  | nil => exact absurd hcs Nat.toDigits_ne_nil
  | cons c cs =>
      rw [hcs] at hdigits hvalue
      have hdigit := hdigits c List.mem_cons_self
      have hplain : splitSign (c :: cs) = (false, c :: cs) := by
        unfold splitSign
        split
        · rename_i heq
          rw [(List.cons.inj heq).1] at hdigit
          exact absurd hdigit (by decide)
        · rename_i heq
          rw [(List.cons.inj heq).1] at hdigit
          exact absurd hdigit (by decide)
        · rfl
      have hne : c ≠ '_' := by
        rintro rfl
        exact absurd hdigit (by decide)
      have hread : parseDigits 0 false (c :: cs) = parseDigits 0 true (c :: cs) := by
        rw [parseDigits, parseDigits, if_neg hne, if_pos hdigit, if_neg hne]
      rw [hplain]
      dsimp only
      rw [hread, parseDigits_digits hdigits, hvalue]
      rfl

theorem toString_inj {m n : ℕ} (h : toString m = toString n) : m = n := by
  have hread := congrArg parseInt h
  rw [parseInt_toString, parseInt_toString] at hread
  exact Int.ofNat.inj (Option.some.inj hread)

end Json

theorem parseInt_token : Json.parseInt globalScopeToken = none := by decide +kernel

theorem toString_ne_token (n : ℕ) : toString n ≠ globalScopeToken := by
  intro h
  have hread := congrArg Json.parseInt h
  rw [Json.parseInt_toString, parseInt_token] at hread
  cases hread

/-! ### What may be shown -/

section Histories

variable {F S : Type} [LinearOrder S] [Zero S]

/-- The document is an article that is there and that the user may see. -/
def KbDb.MaySee (db : KbDb F) (user : Actor) (docRef : String) : Prop :=
  ∃ a ∈ db.articles, toString a.id = docRef ∧ a.visibleTo user = true

/-- Public chunks of an article are stored. -/
def KbDb.PublicChunks (db : KbDb F) (articleId : ℕ) : Prop :=
  ∃ row ∈ db.embeddings.rows, row.docRef = toString articleId ∧
    globalScopeToken ∈ row.entityScope

/-- The calls of a history: those on articles, changes of a rule and of the other tables, and the
searches. -/
inductive KbOp
  | create (user : Actor) (data : KbArticleCreate)
  | update (user : Actor) (articleId : ℕ) (data : KbArticleUpdate)
  | rollback (user : Actor) (articleId version : ℕ)
  | delete (user : Actor) (articleId : ℕ)
  | setFlag (flag : String) (on : Bool)
  | setStore (value : String)
  | others (tickets : List AiTicket) (hosts : List AssetHost) (categories ticketRefs : List ℕ)
  | search (user : Actor) (q mode : String) (limit : ℕ) (entityType : Option String)
  | answer (user : Actor) (q : String) (limit : ℕ) (entityType : Option String)
  | similar (user : Actor) (ticketId limit : ℕ)

namespace KbOp

variable (env : KbEnv F S)

/-- The tables after a call. One that raises is rolled back. -/
def apply (db : KbDb F) : KbOp → KbDb F
  | create user data => ((createArticle env.embed user data db).toOption.map Prod.fst).getD db
  | update user articleId data =>
      ((updateArticle env.embed user articleId data db).toOption.map Prod.fst).getD db
  | rollback user articleId version =>
      ((rollbackArticle env.embed user articleId version db).toOption.map Prod.fst).getD db
  | delete user articleId => (deleteArticle user articleId db).toOption.getD db
  | setFlag flag on => { db with flags := fun f => if f = flag then on else db.flags f }
  | setStore value => { db with storeValue := value }
  | others tickets hosts categories ticketRefs =>
      { db with tickets := tickets, hosts := hosts, categories := categories,
                ticketRefs := ticketRefs }
  | search _ _ _ _ _ | answer _ _ _ _ | similar _ _ _ => db

/-- What the call shows to a user who is no administrator, that user may see. -/
def Confined (db : KbDb F) : KbOp → Prop
  | search user q mode limit entityType => user.isAdmin = false →
      ∀ r, kbSemanticSearch env db user q mode limit entityType = .ok r →
        ∀ item ∈ r.list, db.MaySee user item.docRef
  | answer user q limit entityType => user.isAdmin = false →
      ∀ r, kbAnswer env db user q limit entityType = .ok r →
        ∀ c ∈ r.citations, db.MaySee user c.docRef
  | similar user ticketId limit => user.isAdmin = false →
      ∀ tickets, ticketSimilar db user ticketId limit = .ok tickets →
        ∀ t ∈ tickets, t.allowed user = true
  | _ => True

/-- The ids of hosts and tickets find no chunk that the user may not see. -/
def KeepsDomains (db : KbDb F) (user : Actor) (entityType : Option String) : Prop :=
  askedType entityType = "host" ∨ askedType entityType = "ticket" →
    ∀ row ∈ db.embeddings.rows,
      (∃ e ∈ row.entityScope, e ∈ db.visibleEntityIdsFor (askedType entityType) user) →
        db.MaySee user row.docRef

/-- An article with public chunks is not deleted, and is not classified while `ai.kb_assist` is off;
a search keeps to its domain; and similar tickets are asked for where the user may see the others of
the category. -/
def Sound (db : KbDb F) : KbOp → Prop
  | update _ articleId data =>
      db.flags "ai.kb_assist" = true ∨ data.visibility ≠ some "classified" ∨
        ¬ db.PublicChunks articleId
  | delete _ articleId => ¬ db.PublicChunks articleId
  | search user _ _ _ entityType => KeepsDomains db user entityType
  | answer user _ _ entityType => KeepsDomains db user entityType
  | similar user ticketId _ => ∀ t ∈ db.tickets, t.id = ticketId →
      ∀ r ∈ db.tickets, r.category = t.category → r.id ≠ t.id → r.allowed user = true
  | _ => True

end KbOp

/-! ### Chunks and their articles -/

/-- The chunks carry the id of their article and perhaps the token, and those with the token are of
articles that every user may see. -/
structure ScopesCovered (db : KbDb F) : Prop where
  nodup : (db.articles.map KbArticle.id).Nodup
  below : ∀ a ∈ db.articles, a.id < db.nextArticle
  named : ∀ row ∈ db.embeddings.rows, ∃ n : ℕ, row.docRef = toString n ∧
    ∀ e ∈ row.entityScope, e = toString n ∨ e = globalScopeToken
  covered : ∀ row ∈ db.embeddings.rows, globalScopeToken ∈ row.entityScope →
    ∃ a ∈ db.articles, toString a.id = row.docRef ∧ a.visibility ≠ .classified

theorem KbArticle.visibleTo_of_ne {a : KbArticle} (user : Actor) (h : a.visibility ≠ .classified) :
    a.visibleTo user = true := by
  rw [KbArticle.visibleTo]
  cases hv : a.visibility with
  | pub => rfl
  | internal => rfl
  | classified => exact absurd hv h

theorem mem_entityScope {a : KbArticle} {e : String} (h : e ∈ entityScope a) :
    e = toString a.id ∨ (e = globalScopeToken ∧ a.visibility = .pub) := by
  unfold entityScope at h
  split_ifs at h with hpub
  · rcases List.mem_cons.mp h with rfl | h
    · exact Or.inl rfl
    · exact Or.inr ⟨List.mem_singleton.mp h, hpub⟩
  · exact Or.inl (List.mem_singleton.mp h)

/-- The chunks after a call that stores an article: if they are not refreshed, public ones of this
article need it not to be classified. -/
theorem covered_of_ingests {db mid db' : KbDb F} {article : KbArticle} (hdb : ScopesCovered db)
    (hingests : Ingests mid db' article) (hrows : mid.embeddings = db.embeddings)
    (hnodup : (mid.articles.map KbArticle.id).Nodup)
    (hbelow : ∀ a ∈ mid.articles, a.id < mid.nextArticle) (hmem : article ∈ mid.articles)
    (hothers : ∀ a ∈ db.articles, a.id ≠ article.id → a ∈ mid.articles)
    (hstale : mid.flags "ai.kb_assist" = false → db.PublicChunks article.id →
      article.visibility ≠ .classified) : ScopesCovered db' where
  nodup := hingests.articles ▸ hnodup
  below := by
    rw [hingests.articles, hingests.nextArticle]
    exact hbelow
  named row hrow := by
    rcases hingests.rows with ⟨-, hsame⟩ | ⟨-, hrefreshed⟩
    · rw [hsame, hrows] at hrow
      exact hdb.named row hrow
    · rcases hrefreshed row hrow with ⟨hold, -⟩ | ⟨hdoc, hscope⟩
      · rw [hrows] at hold
        exact hdb.named row hold
      · refine ⟨article.id, hdoc, fun e he => ?_⟩
        rw [hscope] at he
        exact (mem_entityScope he).imp_right And.left
  covered row hrow htoken := by
    rw [hingests.articles]
    -- An old row of another article keeps its article; one of this article needs it to be visible.
    have hkept (hold : row ∈ db.embeddings.rows)
        (hthis : row.docRef = toString article.id → article.visibility ≠ .classified) :
        ∃ a ∈ mid.articles, toString a.id = row.docRef ∧ a.visibility ≠ .classified := by
      obtain ⟨a, ha, hid, hvisible⟩ := hdb.covered row hold htoken
      by_cases hsame : a.id = article.id
      · rw [hsame] at hid
        exact ⟨article, hmem, hid, hthis hid.symm⟩
      · exact ⟨a, hothers a ha hsame, hid, hvisible⟩
    rcases hingests.rows with ⟨hoff, hsame⟩ | ⟨-, hrefreshed⟩
    · rw [hsame, hrows] at hrow
      exact hkept hrow fun hdoc => hstale hoff ⟨row, hrow, hdoc, htoken⟩
    · rcases hrefreshed row hrow with ⟨hold, hne⟩ | ⟨hdoc, hscope⟩
      · rw [hrows] at hold
        exact hkept hold fun hdoc => absurd hdoc hne
      · rw [hscope] at htoken
        rcases mem_entityScope htoken with hnumber | ⟨-, hpub⟩
        · exact absurd hnumber.symm (toString_ne_token article.id)
        · exact ⟨article, hmem, hdoc.symm, by rw [hpub]; decide⟩

theorem ScopesCovered.not_classified {db : KbDb F} {a : KbArticle} (hdb : ScopesCovered db)
    (ha : a ∈ db.articles) (hpublic : db.PublicChunks a.id) : a.visibility ≠ .classified := by
  obtain ⟨row, hrow, hdoc, htoken⟩ := hpublic
  obtain ⟨b, hb, hid, hvisible⟩ := hdb.covered row hrow htoken
  have hba : b = a := List.inj_on_of_nodup_map hdb.nodup hb ha (Json.toString_inj (hid.trans hdoc))
  exact hba ▸ hvisible

theorem covered_of_addsVersion {db db' : KbDb F} {articleId : ℕ} {old article : KbArticle}
    (hdb : ScopesCovered db) (hadds : AddsVersion db db' articleId old article)
    (hstale : db.flags "ai.kb_assist" = false → db.PublicChunks articleId →
      article.visibility ≠ .classified) : ScopesCovered db' := by
  obtain ⟨hold, rfl, hid, versions, hingests⟩ := hadds
  refine covered_of_ingests hdb hingests rfl ?_ ?_ ?_ ?_ (hid.symm ▸ hstale)
  · have hids : (db.articles.map fun a => if a.id = article.id then article else a).map
        KbArticle.id = db.articles.map KbArticle.id := by
      rw [List.map_map]
      refine List.map_congr_left fun a _ => ?_
      rw [Function.comp_apply]
      split_ifs with h
      · exact h.symm
      · rfl
    exact hids.symm ▸ hdb.nodup
  · intro a ha
    obtain ⟨b, hb, rfl⟩ := List.mem_map.mp ha
    split_ifs with h
    · exact hid.symm ▸ hdb.below old hold
    · exact hdb.below b hb
  · exact List.mem_map.mpr ⟨old, hold, if_pos hid.symm⟩
  · intro a ha hne
    exact List.mem_map.mpr ⟨a, ha, if_neg hne⟩

namespace KbOp

variable {env : KbEnv F S} {db : KbDb F}

/-- A visibility that is named is `classified` only by that name. -/
theorem parse_classified {t : String} (h : KbVisibility.parse t = some .classified) :
    t = "classified" := by
  unfold KbVisibility.parse at h
  split_ifs at h with h₁ h₂ h₃
  · cases h
  · cases h
  · exact h₃

theorem not_publicChunks_next (hdb : ScopesCovered db) : ¬ db.PublicChunks db.nextArticle := by
  rintro ⟨row, hrow, hdoc, htoken⟩
  obtain ⟨a, ha, hid, -⟩ := hdb.covered row hrow htoken
  exact absurd (Json.toString_inj (hid.trans hdoc)) (hdb.below a ha).ne

omit [LinearOrder S] [Zero S] in
/-- **Calls and scopes.** A sound call keeps the chunks to articles that their readers may see. -/
theorem covered_step (hdb : ScopesCovered db) (op : KbOp) (hop : op.Sound db) :
    ScopesCovered (op.apply env db) := by
  cases op with
  | create user data =>
      rw [apply]
      cases hcall : createArticle env.embed user data db with
      | error e => exact hdb
      | ok result =>
          obtain ⟨db', article⟩ := result
          obtain ⟨hid, versions, hingests⟩ := createArticle_ok hcall
          refine covered_of_ingests hdb hingests rfl ?_ ?_
            (List.mem_append_right _ List.mem_cons_self) (fun a ha _ => List.mem_append_left _ ha)
            fun _ hpublic => absurd (hid ▸ hpublic) (not_publicChunks_next hdb)
          · refine Table.nodup_concat hdb.nodup ?_
            rw [hid]
            exact Table.new_of_below hdb.below
          · exact Table.below_concat hdb.below hid (Nat.lt_succ_self _)
  | update user articleId data =>
      rw [apply]
      cases hcall : updateArticle env.embed user articleId data db with
      | error e => exact hdb
      | ok result =>
          obtain ⟨db', article⟩ := result
          obtain ⟨old, hadds, hvisibility⟩ := updateArticle_ok hcall
          refine covered_of_addsVersion hdb hadds fun hoff hpublic hclassified => ?_
          rcases hop with hon | hnamed | hnone
          · rw [hoff] at hon
            cases hon
          · rcases hvisibility with ⟨-, hsame⟩ | ⟨t, ht, hparse⟩
            · refine hdb.not_classified hadds.1 ?_ (hsame.symm.trans hclassified)
              exact hadds.2.1.symm ▸ hpublic
            · rw [hclassified] at hparse
              exact hnamed (ht.trans (congrArg some (parse_classified hparse)))
          · exact hnone hpublic
  | rollback user articleId version =>
      rw [apply]
      cases hcall : rollbackArticle env.embed user articleId version db with
      | error e => exact hdb
      | ok result =>
          obtain ⟨db', article⟩ := result
          obtain ⟨old, hadds, hsame⟩ := rollbackArticle_ok hcall
          refine covered_of_addsVersion hdb hadds fun _ hpublic hclassified => ?_
          refine hdb.not_classified hadds.1 ?_ (hsame.symm.trans hclassified)
          exact hadds.2.1.symm ▸ hpublic
  | delete user articleId =>
      rw [apply]
      cases hcall : deleteArticle user articleId db with
      | error e => exact hdb
      | ok db' =>
          obtain ⟨harticles, hnext, hembeddings⟩ := deleteArticle_ok hcall
          show ScopesCovered db'
          constructor
          · rw [harticles]
            exact hdb.nodup.sublist (List.filter_sublist.map _)
          · rw [harticles, hnext]
            exact fun a ha => hdb.below a (List.mem_filter.mp ha).1
          · rw [hembeddings]
            exact hdb.named
          · rw [harticles, hembeddings]
            intro row hrow htoken
            obtain ⟨a, ha, hid, hvisible⟩ := hdb.covered row hrow htoken
            refine ⟨a, List.mem_filter.mpr ⟨ha, decide_eq_true fun hsame => ?_⟩, hid, hvisible⟩
            exact hop ⟨row, hrow, hsame ▸ hid.symm, htoken⟩
  | setFlag flag on => exact ⟨hdb.nodup, hdb.below, hdb.named, hdb.covered⟩
  | setStore value => exact ⟨hdb.nodup, hdb.below, hdb.named, hdb.covered⟩
  | others tickets hosts categories ticketRefs =>
      exact ⟨hdb.nodup, hdb.below, hdb.named, hdb.covered⟩
  | search user q mode limit entityType => exact hdb
  | answer user q limit entityType => exact hdb
  | similar user ticketId limit => exact hdb

theorem mem_visibleKb {user : Actor} (hadmin : user.isAdmin = false) {e : String}
    (h : e ∈ db.visibleKb user) :
    e = globalScopeToken ∨ ∃ a ∈ db.articles, toString a.id = e ∧ a.visibleTo user = true := by
  rw [KbDb.visibleKb, Finset.mem_insert, List.mem_toFinset] at h
  refine h.imp_right fun h => ?_
  obtain ⟨a, ha, rfl⟩ := List.mem_map.mp h
  obtain ⟨hmem, hcond⟩ := List.mem_filter.mp ha
  rw [hadmin, Bool.false_or] at hcond
  exact ⟨a, hmem, rfl, hcond⟩

/-- **A chunk in scope** is of an article that the user may see. -/
theorem maySee_of_row (hdb : ScopesCovered db) {user : Actor} (hadmin : user.isAdmin = false)
    {entityType : Option String} (hdomain : KeepsDomains db user entityType)
    {row : KbEmbedding F}
    (hrow : row ∈ db.embeddings.select (db.scopeFor user (askedType entityType))) :
    db.MaySee user row.docRef := by
  by_cases hknown : askedType entityType ∉ knownEntityTypes
  · have hnone : db.embeddings.select (some ⟨askedType entityType, ∅⟩) = [] := by
      rw [PostgresArrayEmbeddingStore.select]
      exact if_pos rfl
    rw [KbDb.scopeFor, if_pos hknown, hnone] at hrow
    cases hrow
  · rw [KbDb.scopeFor, if_neg hknown, hadmin, if_neg Bool.false_ne_true] at hrow
    unfold PostgresArrayEmbeddingStore.select at hrow
    dsimp only at hrow
    split_ifs at hrow with hempty
    · cases hrow
    · obtain ⟨hmem, hshared⟩ := List.mem_filter.mp hrow
      obtain ⟨e, he, hin⟩ := List.any_eq_true.mp hshared
      have hids := of_decide_eq_true hin
      by_cases hkb : askedType entityType = "kb"
      · rw [hkb] at hids
        obtain ⟨n, hdoc, hnames⟩ := hdb.named row hmem
        have hall (htoken : globalScopeToken ∈ row.entityScope) : db.MaySee user row.docRef := by
          obtain ⟨a, ha, hid, hvisible⟩ := hdb.covered row hmem htoken
          exact ⟨a, ha, hid, a.visibleTo_of_ne user hvisible⟩
        rcases mem_visibleKb hadmin hids with rfl | ⟨a, ha, hid, hvisible⟩
        · exact hall he
        · rcases hnames e he with rfl | rfl
          · exact ⟨a, ha, hid.trans hdoc.symm, hvisible⟩
          · exact hall he
      · by_cases hforeign : askedType entityType = "host" ∨ askedType entityType = "ticket"
        · exact hdomain hforeign row hmem ⟨e, he, hids⟩
        · -- What is left has no ids for a user who is no administrator.
          unfold KbDb.visibleEntityIdsFor at hids
          rw [if_neg fun h => hforeign (Or.inl h), if_neg fun h => hforeign (Or.inr h),
            if_neg hkb, hadmin, if_neg Bool.false_ne_true, ite_self] at hids
          exact absurd hids (Finset.notMem_empty e)

/-- **One call.** Where the scopes are covered, a sound call shows what its user may see. -/
theorem confined_step (hdb : ScopesCovered db) (op : KbOp) (hop : op.Sound db) :
    op.Confined env db := by
  cases op with
  | search user q mode limit entityType =>
      intro hadmin r hr item hitem
      rcases docRef_of_search hr hitem with ⟨row, hrow, hdoc⟩ | ⟨hkb, a, ha, hid, hscope⟩
      · exact hdoc ▸ maySee_of_row hdb hadmin hop hrow
      · have hkbScope : db.scopeFor user (askedType entityType) =
            some ⟨"kb", db.visibleKb user⟩ := by
          rw [hkb, KbDb.scopeFor, hadmin]
          rfl
        obtain ⟨raw, hraw, hread⟩ := hscope _ hkbScope
        rcases mem_visibleKb hadmin hraw with rfl | ⟨b, hb, rfl, hvisible⟩
        · rw [parseInt_token] at hread
          cases hread
        · rw [Json.parseInt_toString] at hread
          refine ⟨b, hb, ?_, hvisible⟩
          rw [← hid, Int.ofNat.inj (Option.some.inj hread)]
  | answer user q limit entityType =>
      intro hadmin r hr c hc
      obtain ⟨row, hrow, hdoc⟩ := docRef_of_answer hr hc
      exact hdoc ▸ maySee_of_row hdb hadmin hop hrow
  | similar user ticketId limit =>
      intro _ tickets htickets r hr
      obtain ⟨t, ht, hid, hmem, hcategory, hne⟩ := ticket_of_similar htickets hr
      exact hop t ht hid r hmem hcategory hne
  | create user data => trivial
  | update user articleId data => trivial
  | rollback user articleId version => trivial
  | delete user articleId => trivial
  | setFlag flag on => trivial
  | setStore value => trivial
  | others tickets hosts categories ticketRefs => trivial

end KbOp

/-- Tables in which no article has been ingested. -/
structure NothingEmbedded (db : KbDb F) : Prop where
  rows : db.embeddings.rows = []
  nodup : (db.articles.map KbArticle.id).Nodup
  below : ∀ a ∈ db.articles, a.id < db.nextArticle

omit [LinearOrder S] [Zero S] in
theorem NothingEmbedded.covered {db : KbDb F} (h : NothingEmbedded db) : ScopesCovered db where
  nodup := h.nodup
  below := h.below
  named row hrow := by
    rw [h.rows] at hrow
    cases hrow
  covered row hrow := by
    rw [h.rows] at hrow
    cases hrow

/-- **Retrieval is confined** along the histories whose calls are sound. -/
theorem confined_run (env : KbEnv F S) {db : KbDb F} (h : NothingEmbedded db) {ops : List KbOp}
    (hops : Meets (KbOp.apply env) (fun db op => op.Sound db) db ops) :
    Meets (KbOp.apply env) (fun db op => op.Confined env db) db ops :=
  meets_of_invariant (P := ScopesCovered)
    (fun db op hdb hop => (KbOp.confined_step hdb op hop : op.Confined env db))
    (fun db op hdb hop => (KbOp.covered_step hdb op hop : ScopesCovered (op.apply env db)))
    h.covered hops

omit [Zero S] in
/-- **Answers and stored chunks.** With room for all that is found, an assistant that is on cites
what the user may see exactly if that is all there is in scope. -/
theorem answers_confined_iff (env : KbEnv F S) {db : KbDb F} {user : Actor}
    (hadmin : user.isAdmin = false) {entityType : Option String}
    (hflag : db.flags "ai.kb_assist" = true) (hperm : user.hasPerm "ai:use" = true)
    (hstore : db.resolveStoreConfig = .ok .pgArray) :
    (∀ q limit, user.isAdmin = false → ∀ r, kbAnswer env db user q limit entityType = .ok r →
        ∀ c ∈ r.citations, db.MaySee user c.docRef) ↔
      ∀ row ∈ db.embeddings.select (db.scopeFor user (askedType entityType)),
        db.MaySee user row.docRef := by
  set scope := db.scopeFor user (askedType entityType) with hscope
  constructor
  · intro h row hrow
    have hempty : emptyScope scope ≠ true := by
      intro hnone
      cases hs : scope with
      | none =>
          rw [hs] at hnone
          cases hnone
      | some s =>
          rw [hs] at hnone hrow
          unfold PostgresArrayEmbeddingStore.select at hrow
          dsimp only at hrow
          rw [if_pos (of_decide_eq_true hnone)] at hrow
          cases hrow
    set hits := (db.embeddings.select scope).map (KbEmbedding.hit env.cosine (env.embed ""))
      with hhits
    obtain ⟨r, hr⟩ : ∃ r, kbAnswer env db user "" hits.length entityType = .ok r := by
      exact ⟨_, by
        rw [kbAnswer, KbDb.requireFeature, if_pos hflag, Actor.requirePerm, if_pos hperm]
        dsimp only [bind, Except.bind]
        rw [← hscope, if_neg hempty, KbDb.queryStore, hstore]
        rfl⟩
    rcases kbAnswer_ok hr with ⟨hnone, -⟩ | ⟨found, hfound, hcitations⟩
    · exact absurd hnone hempty
    · rw [KbDb.queryStore, hstore] at hfound
      have hhit : row.hit env.cosine (env.embed "") ∈ found := by
        rw [← Except.ok.inj hfound, EmbeddingStore.query_eq rfl]
        exact mem_best_of_length (List.mem_map_of_mem hrow) le_rfl
      exact h "" hits.length hadmin r hr (citation env (row.hit env.cosine (env.embed "")))
        (hcitations ▸ List.mem_map_of_mem hhit)
  · intro h q limit _ r hr c hc
    obtain ⟨row, hrow, hdoc⟩ := docRef_of_answer hr hc
    exact hdoc ▸ h row hrow

end Histories

/-! ### A document that outlives its article -/

/-- Vectors of one number, and every title matched. -/
def lengthEnv : KbEnv ℤ ℤ where
  embed t := [t.length]
  cosine a b := a.sum * b.sum
  round6 x := x
  ilike _ _ := true

/-- Empty tables with the assistant on. -/
def emptyKb : KbDb ℤ where
  articles := []
  versions := []
  nextArticle := 1
  embeddings := ⟨[]⟩
  categories := []
  ticketRefs := []
  tickets := []
  hosts := []
  flags _ := true
  storeValue := ""
  prod := true

/-- An administrator, who writes a public article. -/
def kbAdmin : Actor := ⟨1, true, [], fun _ => true⟩

/-- A user who asks. -/
def kbReader : Actor := ⟨7, false, [], fun _ => true⟩

/-- The article. -/
def publicArticle : KbArticleCreate := ⟨"restart", none, "public", "turn it off and on", "", []⟩

/-- The article is deleted and is found all the same. -/
theorem deleted_article_found :
    ¬ Meets (KbOp.apply lengthEnv) (fun db op => op.Confined lengthEnv db) emptyKb
      [.create kbAdmin publicArticle, .delete kbAdmin 1,
        .search kbReader "restart" "vector" 10 none] := by
  rintro ⟨-, -, hsearch, -⟩
  have hresult : kbSemanticSearch lengthEnv
      (run (KbOp.apply lengthEnv) emptyKb [.create kbAdmin publicArticle, .delete kbAdmin 1])
      kbReader "restart" "vector" 10 none =
        .ok ⟨[⟨"1", "article:1:0", 126, "vector", none⟩], 1, "vector", false⟩ := by
    decide +kernel
  obtain ⟨a, ha, -⟩ := hsearch rfl _ hresult _ List.mem_cons_self
  have hnone : (run (KbOp.apply lengthEnv) emptyKb
      [.create kbAdmin publicArticle, .delete kbAdmin 1]).articles = [] := by
    decide +kernel
  exact absurd ha (hnone ▸ List.not_mem_nil)

/-- The article is there and is found. -/
theorem public_article_found :
    Meets (KbOp.apply lengthEnv) (fun db op => op.Confined lengthEnv db) emptyKb
      [.create kbAdmin publicArticle, .search kbReader "restart" "vector" 10 none] :=
  confined_run lengthEnv ⟨rfl, by decide, fun _ ha => absurd ha List.not_mem_nil⟩
    ⟨trivial, fun h => absurd h (by decide), trivial⟩

end LarkPlat
