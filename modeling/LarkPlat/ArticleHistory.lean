import LarkPlat.Knowledge
import LarkPlat.Machine
import LarkPlat.Table

/-!
# The History of an Article

A version row holds the title and the content of an article at the time of its writing. The title is
on the article too, and the content is read from the current version. An update writes a version of
the article as it is after the update. A rollback writes one with the content of the version that it
names, and with the title that the article has.

## Main results

* `VersionsNumbered.call`, `KbDb.call_versions`: the versions of an article are counted from one to
  the current one, and the rows that are there stay.
* `history_kept_iff`: in a run of calls, each rollback brings back the title and the content exactly
  if the article has the title of the version by then.
-/

namespace LarkPlat

variable {F : Type} {embed : String → List F}

/-! ### The calls -/

/-- What `get_article` answers. -/
structure ArticlePage where
  article : KbArticle
  content : String
  tags : List String
  deriving DecidableEq

/-- `get_article`. `tags` are those of each article, which are written with it and stay. -/
def getArticle (tags : ℕ → List String) (user : Actor) (articleId : ℕ) (db : KbDb F) :
    Except PyErr ArticlePage := do
  db.requireFeature "feature.kb"
  user.requirePerm "kb:article:list"
  let article ← db.getArticle articleId
  requireVisible user article
  let current := db.version? article.id article.currentVersion
  return { article := article, content := (current.map KbArticleVersion.content).getD "",
           tags := tags article.id }

/-- The calls that write articles and versions. -/
inductive ArticleCall
  | create (user : Actor) (data : KbArticleCreate)
  | update (user : Actor) (articleId : ℕ) (data : KbArticleUpdate)
  | rollback (user : Actor) (articleId version : ℕ)

variable (embed) in
/-- What a call answers. -/
def KbDb.answer (db : KbDb F) : ArticleCall → Except PyErr (KbDb F × KbArticle)
  | .create user data => createArticle embed user data db
  | .update user articleId data => updateArticle embed user articleId data db
  | .rollback user articleId version => rollbackArticle embed user articleId version db

variable (embed) in
/-- What a call leaves. -/
def KbDb.call (db : KbDb F) (c : ArticleCall) : KbDb F :=
  match db.answer embed c with
  | .ok (db', _) => db'
  | .error _ => db

/-! ### What a call writes -/

section Writes

variable {db db' : KbDb F} {article : KbArticle} {version : KbArticleVersion}

theorem maybeIngest_eq (h : maybeIngest embed db article version = .ok db') :
    ∃ store, db' = { db with embeddings := store } := by
  unfold maybeIngest at h
  split_ifs at h with hflag
  · unfold ingestArticle at h
    dsimp only at h
    split_ifs at h with hnone
    · exact ⟨_, (Except.ok.inj h).symm⟩
    · cases hstore : db.resolveStoreConfig with
      | error e =>
          rw [hstore] at h
          cases h
      | ok kind =>
          rw [hstore] at h
          cases kind with
          | inMemory => exact ⟨_, (Except.ok.inj h).symm⟩
          | pgArray =>
              cases hupsert : (db.dropChunks (toString article.id)).upsert
                  (articleRecords embed article version.content) with
              | error e =>
                  simp only [hupsert] at h
                  cases h
              | ok store =>
                  simp only [hupsert] at h
                  exact ⟨_, (Except.ok.inj h).symm⟩
  · exact ⟨db.embeddings, (Except.ok.inj h).symm⟩

/-- `create_article` writes an article and its first version, under a number of its own. -/
structure ArticleCreated (db db' : KbDb F) (article : KbArticle) (version : KbArticleVersion) :
    Prop where
  articles : db'.articles = db.articles ++ [article]
  versions : db'.versions = db.versions ++ [version]
  nextArticle : db'.nextArticle = db.nextArticle + 1
  id : article.id = db.nextArticle
  first : article.currentVersion = 1
  key : version.articleId = article.id ∧ version.version = 1

/-- `update_article` and `rollback_article` write an article that is there, and its next version. -/
structure VersionAppended (db db' : KbDb F) (old article : KbArticle)
    (version : KbArticleVersion) : Prop where
  found : db.getArticle article.id = .ok old
  articles : db'.articles = Table.modify KbArticle.id db.articles article.id fun _ => article
  versions : db'.versions = db.versions ++ [version]
  nextArticle : db'.nextArticle = db.nextArticle
  next : article.currentVersion = old.currentVersion + 1
  key : version.articleId = article.id ∧ version.version = article.currentVersion
  free : db.version? article.id article.currentVersion = none

theorem createArticle_creates {user : Actor} {data : KbArticleCreate}
    (h : createArticle embed user data db = .ok (db', article)) :
    ∃ version, ArticleCreated db db' article version := by
  obtain ⟨-, -, h⟩ := bind_eq_ok.mp h
  obtain ⟨-, -, h⟩ := bind_eq_ok.mp h
  cases hvisibility : KbVisibility.parse data.visibility with
  | none =>
      rw [hvisibility] at h
      cases h
  | some visibility =>
      rw [hvisibility] at h
      obtain ⟨-, -, h⟩ := bind_eq_ok.mp h
      dsimp only at h
      split_ifs at h with hfits
      obtain ⟨stored, hstored, h⟩ := bind_eq_ok.mp h
      obtain ⟨rfl, rfl⟩ := Prod.mk.inj (Except.ok.inj h)
      obtain ⟨store, rfl⟩ := maybeIngest_eq hstored
      exact ⟨_, rfl, rfl, rfl, rfl, rfl, rfl, rfl⟩

theorem addVersion_appends {old article' : KbArticle} (hold : db.getArticle article.id = .ok old)
    (hnext : article.currentVersion = old.currentVersion + 1)
    (hkey : version.articleId = article.id ∧ version.version = article.currentVersion)
    (h : db.addVersion embed article version = .ok (db', article')) :
    article' = article ∧ VersionAppended db db' old article version := by
  unfold KbDb.addVersion at h
  split_ifs at h with hfits
  obtain ⟨stored, hstored, h⟩ := bind_eq_ok.mp h
  obtain ⟨rfl, rfl⟩ := Prod.mk.inj (Except.ok.inj h)
  obtain ⟨store, rfl⟩ := maybeIngest_eq hstored
  exact ⟨rfl, hold, rfl, rfl, rfl, hnext, hkey, hkey.2 ▸ Option.isNone_iff_eq_none.mp hfits.2⟩

theorem updateArticle_appends {user : Actor} {articleId : ℕ} {data : KbArticleUpdate}
    (h : updateArticle embed user articleId data db = .ok (db', article)) :
    ∃ old version, VersionAppended db db' old article version := by
  obtain ⟨-, -, h⟩ := bind_eq_ok.mp h
  obtain ⟨-, -, h⟩ := bind_eq_ok.mp h
  obtain ⟨old, hold, h⟩ := bind_eq_ok.mp h
  obtain ⟨-, -, h⟩ := bind_eq_ok.mp h
  obtain ⟨visibility, -, h⟩ := bind_eq_ok.mp h
  obtain ⟨-, -, h⟩ := bind_eq_ok.mp h
  obtain ⟨-, hid⟩ := getArticle_ok hold
  obtain ⟨rfl, happends⟩ := addVersion_appends (hid.symm ▸ hold) rfl ⟨rfl, rfl⟩ h
  exact ⟨old, _, happends⟩

/-- **`rollback_article`** writes a version with the content of its target and the title of the
article. -/
theorem rollbackArticle_appends {user : Actor} {articleId v : ℕ}
    (h : rollbackArticle embed user articleId v db = .ok (db', article)) :
    ∃ old target version, db.getArticle articleId = .ok old ∧
      db.version? articleId v = some target ∧ article.id = articleId ∧
      article.title = old.title ∧ version.title = old.title ∧ version.content = target.content ∧
      VersionAppended db db' old article version := by
  obtain ⟨-, -, h⟩ := bind_eq_ok.mp h
  obtain ⟨-, -, h⟩ := bind_eq_ok.mp h
  obtain ⟨old, hold, h⟩ := bind_eq_ok.mp h
  obtain ⟨-, -, h⟩ := bind_eq_ok.mp h
  obtain ⟨-, hid⟩ := getArticle_ok hold
  cases htarget : db.version? articleId v with
  | none =>
      rw [htarget] at h
      cases h
  | some target =>
      rw [htarget] at h
      obtain ⟨rfl, happends⟩ := addVersion_appends (hid.symm ▸ hold) rfl ⟨rfl, rfl⟩ h
      refine ⟨old, target, _, hold, rfl, hid, rfl, ?_, ?_, happends⟩ <;> rfl

theorem KbDb.call_cases (embed : String → List F) (db : KbDb F) (c : ArticleCall) :
    db.call embed c = db ∨
      (∃ article version, ArticleCreated db (db.call embed c) article version) ∨
      ∃ old article version, VersionAppended db (db.call embed c) old article version := by
  unfold KbDb.call
  cases h : db.answer embed c with
  | error e => exact .inl rfl
  | ok res =>
      obtain ⟨db', article⟩ := res
      cases c with
      | create user data =>
          obtain ⟨version, hcreates⟩ := createArticle_creates h
          exact .inr (.inl ⟨article, version, hcreates⟩)
      | update user articleId data =>
          obtain ⟨old, version, happends⟩ := updateArticle_appends h
          exact .inr (.inr ⟨old, article, version, happends⟩)
      | rollback user articleId v =>
          obtain ⟨old, target, version, -, -, -, -, -, -, happends⟩ := rollbackArticle_appends h
          exact .inr (.inr ⟨old, article, version, happends⟩)

end Writes

/-! ### The numbers of the versions -/

/-- The versions of an article. -/
def KbDb.versionsOf (db : KbDb F) (articleId : ℕ) : List KbArticleVersion :=
  db.versions.filter fun v => decide (v.articleId = articleId)

/-- The versions of each article are counted from one to the current one. -/
structure VersionsNumbered (db : KbDb F) : Prop where
  distinct : (db.articles.map KbArticle.id).Nodup
  below : ∀ a ∈ db.articles, a.id < db.nextArticle
  owned : ∀ v ∈ db.versions, v.articleId < db.nextArticle
  numbers : ∀ a ∈ db.articles,
    (db.versionsOf a.id).map KbArticleVersion.version = List.range' 1 a.currentVersion

section Numbers

variable {db db' : KbDb F} {old article : KbArticle} {version : KbArticleVersion}

theorem VersionsNumbered.of_empty (harticles : db.articles = []) (hversions : db.versions = []) :
    VersionsNumbered db := by
  constructor <;> simp [harticles, hversions]

theorem find_of_getArticle {id : ℕ} (h : db.getArticle id = .ok article) :
    Table.find KbArticle.id db.articles id = some article := by
  unfold KbDb.getArticle at h
  cases hfind : db.articles.find? fun a => decide (a.id = id) with
  | none =>
      rw [hfind] at h
      cases h
  | some found =>
      rw [hfind] at h
      obtain rfl := Except.ok.inj h
      exact hfind

theorem getArticle_of_find {id : ℕ}
    (h : Table.find KbArticle.id db.articles id = some article) :
    db.getArticle id = .ok article := by
  unfold Table.find at h
  unfold KbDb.getArticle
  rw [h]

theorem versionsOf_concat (h : db'.versions = db.versions ++ [version]) (id : ℕ) :
    db'.versionsOf id = db.versionsOf id ++ if version.articleId = id then [version] else [] := by
  unfold KbDb.versionsOf
  rw [h, List.filter_append, List.filter_singleton]
  split_ifs <;> simp_all

theorem VersionsNumbered.created (hdb : VersionsNumbered db)
    (h : ArticleCreated db db' article version) : VersionsNumbered db' := by
  have hnew : article.id ∉ db.articles.map KbArticle.id := h.id ▸ Table.new_of_below hdb.below
  refine ⟨?_, ?_, ?_, ?_⟩
  · rw [h.articles]
    exact Table.nodup_concat hdb.distinct hnew
  · rw [h.articles, h.nextArticle]
    exact Table.below_concat hdb.below h.id (Nat.lt_succ_self _)
  · rw [h.versions, h.nextArticle]
    exact Table.below_concat hdb.owned (h.key.1.trans h.id)
      (Nat.lt_succ_self _)
  · intro a ha
    rw [versionsOf_concat h.versions, h.key.1]
    rw [h.articles, List.mem_append, List.mem_singleton] at ha
    rcases ha with ha | rfl
    · have hne : article.id ≠ a.id := fun heq => hnew (heq ▸ List.mem_map_of_mem ha)
      rw [if_neg hne, List.append_nil]
      exact hdb.numbers a ha
    · -- no version bears the next number yet
      have hnone : db.versionsOf a.id = [] := by
        refine List.filter_eq_nil_iff.mpr fun v hv => ?_
        have hlt := hdb.owned v hv
        rw [← h.id] at hlt
        simpa using Nat.ne_of_lt hlt
      rw [hnone, if_pos rfl, h.first]
      exact congrArg (fun n => [n]) h.key.2

theorem VersionsNumbered.appended (hdb : VersionsNumbered db)
    (h : VersionAppended db db' old article version) : VersionsNumbered db' := by
  obtain ⟨hmem, hid⟩ := getArticle_ok h.found
  have hlt : article.id < db.nextArticle := hid ▸ hdb.below old hmem
  refine ⟨?_, ?_, ?_, ?_⟩
  · rw [h.articles, Table.map_key_modify fun _ _ => rfl]
    exact hdb.distinct
  · rw [h.articles, h.nextArticle]
    intro a ha
    rcases Table.mem_modify.mp ha with ⟨-, -, -, rfl⟩ | ⟨ha, -⟩
    · exact hlt
    · exact hdb.below a ha
  · rw [h.versions, h.nextArticle]
    intro v hv
    rcases List.mem_append.mp hv with hv | hv
    · exact hdb.owned v hv
    · rw [List.mem_singleton.mp hv, h.key.1]
      exact hlt
  · intro a ha
    rw [versionsOf_concat h.versions, h.key.1]
    rw [h.articles] at ha
    rcases Table.mem_modify.mp ha with ⟨-, -, -, rfl⟩ | ⟨ha, hne⟩
    · have hnumbers := hdb.numbers old hmem
      rw [hid] at hnumbers
      rw [if_pos rfl, List.map_append, hnumbers, List.map_singleton, h.key.2, h.next,
        List.range'_1_concat, Nat.add_comm 1]
    · rw [if_neg (Ne.symm hne), List.append_nil]
      exact hdb.numbers a ha

/-- **The numbers stay** counted from one. -/
theorem VersionsNumbered.call (hdb : VersionsNumbered db) (c : ArticleCall) :
    VersionsNumbered (db.call embed c) := by
  rcases db.call_cases embed c with hsame | ⟨_, _, hcreated⟩ | ⟨_, _, _, happended⟩
  · rw [hsame]
    exact hdb
  · exact hdb.created hcreated
  · exact hdb.appended happended

/-- **The rows stay**: a call writes at most one more version. -/
theorem KbDb.call_versions (db : KbDb F) (c : ArticleCall) :
    db.versions <+: (db.call embed c).versions := by
  rcases db.call_cases embed c with hsame | ⟨_, _, hcreated⟩ | ⟨_, _, _, happended⟩
  · rw [hsame]
  · rw [hcreated.versions]
    exact List.prefix_append _ _
  · rw [happended.versions]
    exact List.prefix_append _ _

end Numbers

/-! ### Rollbacks -/

section Rollbacks

variable {db db' : KbDb F}

/-- The article shows a version again: its current version has the title and the content of that
version, and so has what `get_article` answers. -/
def Restored (db' : KbDb F) (articleId : ℕ) (target : KbArticleVersion) : Prop :=
  ∃ article current, db'.getArticle articleId = .ok article ∧
    db'.version? articleId article.currentVersion = some current ∧
    current.title = target.title ∧ current.content = target.content ∧
    ∀ tags reader page, getArticle tags reader articleId db' = .ok page →
      page.article.title = target.title ∧ page.content = target.content

/-- A rollback that goes through finds that the article has the title of the version. -/
def KeepsTitle (embed : String → List F) (db : KbDb F) : ArticleCall → Prop
  | .rollback user articleId version =>
      (∃ res, rollbackArticle embed user articleId version db = .ok res) →
        ∀ article target, db.getArticle articleId = .ok article →
          db.version? articleId version = some target → target.title = article.title
  | _ => True

/-- A rollback that goes through restores the version that it names. -/
def Restores (embed : String → List F) (db : KbDb F) : ArticleCall → Prop
  | .rollback user articleId version =>
      ∀ res, rollbackArticle embed user articleId version db = .ok res →
        ∀ target, db.version? articleId version = some target → Restored res.1 articleId target
  | _ => True

theorem VersionAppended.found_after {old article : KbArticle} {version : KbArticleVersion}
    (h : VersionAppended db db' old article version) :
    db'.getArticle article.id = .ok article ∧
      db'.version? article.id article.currentVersion = some version := by
  constructor
  · refine getArticle_of_find ?_
    rw [h.articles, Table.find_modify_self fun _ _ => rfl, find_of_getArticle h.found]
    rfl
  · have hfree := h.free
    unfold KbDb.version? at hfree ⊢
    rw [h.versions, List.find?_append, hfree, Option.none_or]
    simp [h.key]

theorem getArticle_page {tags : ℕ → List String} {reader : Actor} {article : KbArticle}
    {articleId : ℕ} {page : ArticlePage} (hfound : db.getArticle articleId = .ok article)
    (h : getArticle tags reader articleId db = .ok page) :
    page.article = article ∧ page.content =
      ((db.version? article.id article.currentVersion).map KbArticleVersion.content).getD "" := by
  obtain ⟨-, -, h⟩ := bind_eq_ok.mp h
  obtain ⟨-, -, h⟩ := bind_eq_ok.mp h
  obtain ⟨shown, hshown, h⟩ := bind_eq_ok.mp h
  obtain ⟨-, -, h⟩ := bind_eq_ok.mp h
  obtain rfl := Except.ok.inj (hfound.symm.trans hshown)
  obtain rfl := Except.ok.inj h
  exact ⟨rfl, rfl⟩

/-- **One rollback** restores its version exactly if the article has the title of it. -/
theorem restores_iff_keepsTitle (db : KbDb F) (c : ArticleCall) :
    Restores embed db c ↔ KeepsTitle embed db c := by
  cases c with
  | create user data => exact Iff.rfl
  | update user articleId data => exact Iff.rfl
  | rollback user articleId v =>
      constructor
      · rintro h ⟨⟨db', article⟩, hres⟩ found target hfound htarget
        obtain ⟨old, -, version, hold, -, rfl, -, htitle, -, happended⟩ :=
          rollbackArticle_appends hres
        obtain rfl := Except.ok.inj (hfound.symm.trans hold)
        obtain ⟨harticle, hversion⟩ := happended.found_after
        obtain ⟨shown, current, hshown, hcurrent, heq, -⟩ := h _ hres target htarget
        obtain rfl := Except.ok.inj (harticle.symm.trans hshown)
        obtain rfl := Option.some.inj (hversion.symm.trans hcurrent)
        exact heq.symm.trans htitle
      · rintro h ⟨db', article⟩ hres target htarget
        obtain ⟨old, target', version, hold, htarget', rfl, hkept, htitle, hcontent, happended⟩ :=
          rollbackArticle_appends hres
        obtain rfl := Option.some.inj (htarget.symm.trans htarget')
        have hsame : target.title = old.title := h ⟨_, hres⟩ old target hold htarget
        obtain ⟨harticle, hversion⟩ := happended.found_after
        refine ⟨article, version, harticle, hversion, htitle.trans hsame.symm, hcontent,
          fun tags reader page hpage => ?_⟩
        obtain ⟨hshown, hpageContent⟩ := getArticle_page harticle hpage
        rw [hshown, hpageContent, hversion]
        exact ⟨hkept.trans hsame.symm, hcontent⟩

variable (embed) in
/-- **The history of articles** in a run of calls: the versions of each article are counted from one
to the current one, no row that is there changes, and each rollback that goes through restores the
version that it names. -/
structure HistoryKept (db : KbDb F) (ops : List ArticleCall) : Prop where
  numbered : ∀ pre, pre <+: ops → VersionsNumbered (Machine.run (KbDb.call embed) db pre)
  appendOnly : ∀ pre pre', pre <+: pre' → pre' <+: ops →
    (Machine.run (KbDb.call embed) db pre).versions <+:
      (Machine.run (KbDb.call embed) db pre').versions
  restored : Machine.Meets (KbDb.call embed) (Restores embed) db ops

/-- **Numbers and rows** are kept without a condition; each rollback of a run restores the title and
the content of its version exactly if the article has the title of that version then. -/
theorem history_kept_iff (hdb : VersionsNumbered db) (ops : List ArticleCall) :
    HistoryKept embed db ops ↔ Machine.Meets (KbDb.call embed) (KeepsTitle embed) db ops := by
  rw [← Machine.meets_congr restores_iff_keepsTitle]
  refine ⟨HistoryKept.restored, fun h => ⟨fun pre _ => ?_, ?_, h⟩⟩
  · exact Machine.run_invariant (fun _ c hnumbered => hnumbered.call c) hdb pre
  · rintro pre - ⟨post, rfl⟩ -
    rw [Machine.run_append]
    exact Machine.run_invariant
      (P := fun st : KbDb F => (Machine.run (KbDb.call embed) db pre).versions <+: st.versions)
      (fun st c h => h.trans (st.call_versions c)) (List.prefix_refl _) post

end Rollbacks

/-! ### A title that stays -/

/-- Empty tables. -/
def noArticles : KbDb ℤ where
  articles := []
  versions := []
  nextArticle := 1
  embeddings := ⟨[]⟩
  categories := []
  ticketRefs := []
  tickets := []
  hosts := []
  flags flag := flag == "feature.kb"
  storeValue := ""
  prod := true

/-- An editor. -/
def kbEditor : Actor := ⟨3, false, [], fun _ => true⟩

/-- An article is written. -/
def writeRestart : ArticleCall :=
  .create kbEditor ⟨"Restart", none, "internal", "turn it off and on", "", []⟩

/-- Its title and its content are changed. -/
def retitleRestart : ArticleCall :=
  .update kbEditor 1 ⟨some "Reboot", none, none, some "call the operator", none, ""⟩

/-- What the two calls leave: the article has the new title, and the first version the old one. -/
theorem retitled_article :
    let db := Machine.run (KbDb.call fun text => [(text.length : ℤ)]) noArticles
      [writeRestart, retitleRestart]
    db.getArticle 1 = .ok ⟨1, "Reboot", none, .internal, 2, some 3, ""⟩ ∧
      db.version? 1 1 = some ⟨1, 1, "Restart", "turn it off and on", "initial", 3⟩ := by
  decide +kernel

/-- The content of the first version comes back, and its title does not. -/
theorem title_not_restored : ¬ HistoryKept (fun text => [(text.length : ℤ)]) noArticles
    [writeRestart, retitleRestart, .rollback kbEditor 1 1] := by
  intro h
  obtain ⟨-, -, hrestores, -⟩ := h.restored
  obtain ⟨harticle, hversion⟩ := retitled_article
  have hkeeps := (restores_iff_keepsTitle _ _).mp hrestores
  exact absurd (hkeeps ⟨_, rfl⟩ _ _ harticle hversion) (by decide)

/-- Its content is changed. -/
def rewriteRestart : ArticleCall :=
  .update kbEditor 1 ⟨none, none, none, some "call the operator", none, ""⟩

/-- An article whose title stays shows its first version again. -/
theorem first_version_restored : HistoryKept (fun text => [(text.length : ℤ)]) noArticles
    [writeRestart, rewriteRestart, .rollback kbEditor 1 1] := by
  refine (history_kept_iff (VersionsNumbered.of_empty rfl rfl) _).mpr
    ⟨trivial, trivial, ?_, trivial⟩
  have hkept : (Machine.run (KbDb.call fun text => [(text.length : ℤ)]) noArticles
      [writeRestart, rewriteRestart]).getArticle 1 =
        .ok ⟨1, "Restart", none, .internal, 2, some 3, ""⟩ := by
    decide +kernel
  have hfirst : (Machine.run (KbDb.call fun text => [(text.length : ℤ)]) noArticles
      [writeRestart, rewriteRestart]).version? 1 1 =
        some ⟨1, 1, "Restart", "turn it off and on", "initial", 3⟩ := by
    decide +kernel
  rintro - article target harticle htarget
  obtain rfl := Except.ok.inj (hkept.symm.trans harticle)
  obtain rfl := Option.some.inj (hfirst.symm.trans htarget)
  rfl

end LarkPlat
