import LarkPlat.Faults
import LarkPlat.FileTree
import LarkPlat.PullChunks
import LarkPlat.PullContainment
import Mathlib.Algebra.GroupWithZero.Nat
import Mathlib.Data.List.Forall2

/-!
# Uploaded Packages

`create_package` makes a directory with a fresh name below `settings.transfer_store_dir`, writes the
uploaded files into it one by one, and then adds the package and its items in one transaction.
Nothing that has been written is removed when the call raises later.

The tree of files begins at the store; the directories above it are left out. The operating system
answers each upload for itself.

## Main results

* `uploadFiles_ends`: what the loop over the uploads leaves.
* `package_ends`: a package that is created is the files that were uploaded. A call that raises adds
  no row, and what it leaves lies in the directory that it has made.
-/

namespace LarkPlat

open Faults FileTree SlashPaths Transfers

/-! ### The call -/

/-- `UploadFile`: its name, and what reading it returns. -/
structure Upload where
  filename : Option String
  read : Except PyErr (List UInt8)

/-- `file_package`, with the columns that `create_package` writes. -/
structure PackageRow where
  id : ℕ
  name : String
  fileCount : ℕ
  totalSize : ℕ
  storePath : String
  createdBy : Option ℕ
  deriving DecidableEq

/-- An entry of the manifest. -/
structure ManifestEntry where
  path : String
  size : ℕ
  sha256 : String
  deriving DecidableEq

/-- The files below the store, and the committed rows. -/
structure PackageStore where
  tree : Tree
  packages : List PackageRow
  items : List FileItem

/-- What an upload raises. -/
inductive UploadErr
  | raised (e : PyErr)
  | osError
  deriving DecidableEq

/-- What a call of `create_package` meets. -/
structure UploadEnv where
  /-- The value of the rule `feature.transfer`. -/
  featureRule : Option Json
  /-- The value of the rule `transfer.chunk_size`. -/
  chunkRule : Option Json
  /-- `str(Path(settings.transfer_store_dir))`. -/
  storeDir : String
  /-- `uuid.uuid4().hex`. -/
  dirName : List Char
  /-- The answers to the first `mkdir`. -/
  dirOs : Os
  /-- The answers to the upload at a position. -/
  os : ℕ → Os
  sha256 : List UInt8 → String
  /-- The name of a package without one, of the clock. -/
  defaultName : String
  packageId : ℕ
  nextItemId : ℕ
  /-- The database takes the package. -/
  takesPackage : PackageRow → Bool
  /-- The database takes the items, but for their unique key. -/
  takesItems : List FileItem → Bool

/-- A program on the store. What was written stays when it raises. -/
abbrev UploadM := EStateM UploadErr PackageStore

/-- The parts of `_safe_rel_path`. -/
def pathParts (name : String) : List (List Char) :=
  let n := (orText name "file").toList.map fun c => if c = '\\' then '/' else c
  ((n.dropWhile fun c => decide (c = '/')).splitOn '/').filter fun p => decide (p ≠ [] ∧ p ≠ ['.'])

/-- `_safe_rel_path`. -/
def safeRelPath (name : String) : Except PyErr String :=
  if ['.', '.'] ∈ pathParts name ∨ pathParts name = [] then
    .error (.badRequest "invalid file path in upload")
  else .ok (String.ofList (joined (pathParts name)))

/-- `_chunk_size`, of the value of the rule. -/
def chunkSize : Option Json → Except PyErr ℤ
  | none => pure 1048576
  | some ruleValue => do
      let val ← Json.toInt
        (← getOr (ruleValue.pyOr (.obj [])) "chunk_size" (.int 1048576))
      return if val > 0 then val else 1048576

/-- A call that may raise. -/
def attemptCall {α : Type} (x : Except PyErr α) : UploadM α := fun s =>
  match x with
  | .ok a => .ok a s
  | .error e => .error (.raised e) s

/-- A call of the operating system, which changes the tree also if it raises. -/
def onTree (op : Tree → Bool × Tree) : UploadM Unit := fun s =>
  if (op s.tree).1 then .ok () { s with tree := (op s.tree).2 }
  else .error .osError { s with tree := (op s.tree).2 }

section Calls

variable (env : UploadEnv)

/-- Where the file of a relative path is stored. -/
def UploadEnv.dest (rel : String) : Path :=
  env.dirName :: rel.toList.splitOn '/'

/-- An upload: the file is written. -/
def uploadFile (k : ℕ) (f : Upload) : UploadM ManifestEntry := do
  let rel ← attemptCall (safeRelPath (orText (f.filename.getD "") "file"))
  let data ← attemptCall f.read
  onTree (makeDirs (env.os k) [] (env.dest rel).dropLast)
  onTree (writeBytes (env.os k) (env.dest rel) data)
  return ⟨rel, data.length, env.sha256 data⟩

/-- The loop over the uploads, from a position on. -/
def uploadFiles : ℕ → List Upload → UploadM (List ManifestEntry)
  | _, [] => pure []
  | k, f :: files => do
      let entry ← uploadFile env k f
      let entries ← uploadFiles (k + 1) files
      return entry :: entries

/-- The row of the package. -/
def UploadEnv.packageRow (user : Actor) (name : String) (items : List ManifestEntry) :
    PackageRow where
  id := env.packageId
  name := orText name env.defaultName
  fileCount := items.length
  totalSize := (items.map ManifestEntry.size).sum
  storePath := env.storeDir ++ "/" ++ String.ofList env.dirName
  createdBy := some user.id

/-- The rows of its files. -/
def UploadEnv.itemRows (chunkSize : ℤ) (items : List ManifestEntry) : List FileItem :=
  items.mapIdx fun k it =>
    ⟨env.nextItemId + k, env.packageId, it.path, it.size, it.sha256, chunkSize⟩

/-- The unique key of `file_item`. -/
def itemKey (i : FileItem) : ℕ × String := (i.packageId, i.relPath)

/-- The rows of a package, in one transaction. -/
def addRows (user : Actor) (name : String) (items : List ManifestEntry) : UploadM Unit := do
  if !env.takesPackage (env.packageRow user name items) then throw (.raised .integrityError)
  let cs ← attemptCall (chunkSize env.chunkRule)
  let s ← get
  if ((s.items ++ env.itemRows cs items).map itemKey).Nodup ∧
      env.takesItems (env.itemRows cs items) = true then
    modify fun s => { s with
      packages := s.packages ++ [env.packageRow user name items]
      items := s.items ++ env.itemRows cs items }
  else throw (.raised .integrityError)

/-- What `create_package` asks before it makes the directory. -/
def checkUpload (user : Actor) (files : List Upload) : Except PyErr Unit := do
  user.requirePerm "transfer:package:add"
  if !(← featureEnabled env.featureRule) then throw (.badRequest "transfer feature disabled")
  if files.isEmpty then throw (.badRequest "files[] required")

/-- `create_package`. -/
def createPackage (user : Actor) (files : List Upload) (name : String) :
    UploadM (ℕ × List ManifestEntry) := do
  attemptCall (checkUpload env user files)
  onTree (makeDirs env.dirOs [] [env.dirName])
  let items ← uploadFiles env 0 files
  if items.isEmpty then throw (.raised (.badRequest "no usable files in upload"))
  addRows env user name items
  return (env.packageId, items)

end Calls

/-! ### What is stored -/

section Names

variable {name rel : String}

theorem safeRelPath_ok (h : safeRelPath name = .ok rel) :
    ∃ names, names ≠ [] ∧ (∀ n ∈ names, IsName n) ∧ rel.toList = joined names ∧
      rel.toList.splitOn '/' = names := by
  rw [safeRelPath] at h
  split_ifs at h with hinvalid
  obtain ⟨hdots, hne⟩ := not_or.mp hinvalid
  have hnames : ∀ n ∈ pathParts name, IsName n := by
    intro n hn
    obtain ⟨hmem, hplain⟩ := List.mem_filter.mp hn
    obtain ⟨hempty, hdot⟩ := of_decide_eq_true hplain
    exact ⟨hempty, hdot, fun heq => hdots (heq ▸ hn), (Text.of_mem_splitOn hmem).1⟩
  have hrel := congrArg String.toList (Except.ok.inj h)
  rw [String.toList_ofList] at hrel
  exact ⟨_, hne, hnames, hrel.symm, by rw [← hrel, splitOn_joined hne hnames]⟩

end Names

/-- An upload and its entry: the path is the upload's, and the file below it has the size and the
checksum of the upload. -/
structure Faithful (env : UploadEnv) (tree : Tree) (f : Upload) (entry : ManifestEntry) : Prop where
  named : safeRelPath (orText (f.filename.getD "") "file") = .ok entry.path
  stored : ∃ data, f.read = .ok data ∧ tree (env.dest entry.path) = some (.file data) ∧
    entry.size = data.length ∧ entry.sha256 = env.sha256 data

/-- The rows are as before, and so is what is outside of the directory of the call. -/
structure StaysWithin (env : UploadEnv) (s s' : PackageStore) : Prop where
  packages : s'.packages = s.packages
  items : s'.items = s.items
  outside : ∀ q, ¬ [env.dirName] <+: q → s'.tree q = s.tree q

section Uploads

variable {env : UploadEnv} {s s' s₀ : PackageStore} {k : ℕ} {f : Upload} {files : List Upload}
  {op : Tree → Bool × Tree}

theorem StaysWithin.refl (s : PackageStore) : StaysWithin env s s := ⟨rfl, rfl, fun _ _ => rfl⟩

theorem StaysWithin.onTree (h : StaysWithin env s₀ s) (op : Tree → Bool × Tree)
    (hop : ∀ q, ¬ [env.dirName] <+: q → (op s.tree).2 q = s.tree q) :
    StaysWithin env s₀ { s with tree := (op s.tree).2 } :=
  ⟨h.packages, h.items, fun q hq => (hop q hq).trans (h.outside q hq)⟩

theorem attemptCall_ends {α : Type} {x : Except PyErr α} {E : UploadErr → PackageStore → Prop}
    (hE : ∀ e, E e s) : Ends ((attemptCall x).run s) (fun a s' => x = .ok a ∧ s = s') E := by
  cases x with
  | ok a => exact ⟨rfl, rfl⟩
  | error e => exact hE _

/-- A call of the operating system raises or returns, with the tree that it leaves. -/
theorem onTree_ends {E : UploadErr → PackageStore → Prop}
    (hE : (op s.tree).1 ≠ true → ∀ e, E e { s with tree := (op s.tree).2 }) :
    Ends ((LarkPlat.onTree op).run s)
      (fun _ s' => (op s.tree).1 = true ∧ s' = { s with tree := (op s.tree).2 }) E := by
  by_cases hmade : (op s.tree).1 = true
  · rw [show (LarkPlat.onTree op).run s = _ from if_pos hmade]
    exact ⟨hmade, rfl⟩
  · rw [show (LarkPlat.onTree op).run s = _ from if_neg hmade]
    exact hE hmade _

theorem dest_inj {rel rel' : String} (h : env.dest rel = env.dest rel') : rel = rel' := by
  have hsplit : rel.toList.splitOn '/' = rel'.toList.splitOn '/' := (List.cons.inj h).2
  have hjoined := congrArg (List.intercalate ['/']) hsplit
  rw [List.intercalate_splitOn, List.intercalate_splitOn] at hjoined
  exact String.toList_inj.mp hjoined

theorem uploadFile_ends (h : StaysWithin env s₀ s) :
    Ends ((uploadFile env k f).run s)
      (fun entry s' => StaysWithin env s₀ s' ∧ Faithful env s'.tree f entry ∧
        ∀ q node, q ≠ env.dest entry.path → s.tree q = some node → s'.tree q = some node)
      (fun _ s' => StaysWithin env s₀ s') := by
  rw [uploadFile]
  generalize hnamed : safeRelPath _ = named
  refine ends_bind (attemptCall_ends fun _ => h) ?_
  rintro rel _ ⟨hrel, rfl⟩
  refine ends_bind (attemptCall_ends fun _ => h) ?_
  rintro data _ ⟨hdata, rfl⟩
  have hparents : StaysWithin env s₀
      { s with tree := (makeDirs (env.os k) [] (env.dest rel).dropLast s.tree).2 } := by
    refine h.onTree _ fun q hq => makeDirs_outside ?_ hq
    rw [UploadEnv.dest, List.dropLast_cons_of_ne_nil (List.splitOn_ne_nil _ _)]
    rintro n ⟨⟩
    exact List.prefix_refl _
  refine ends_bind (onTree_ends fun _ _ => hparents) ?_
  rintro _ _ ⟨-, rfl⟩
  have hwritten := hparents.onTree (writeBytes (env.os k) (env.dest rel) data) fun q hq =>
    writeBytes_keeps fun heq => hq (heq ▸ ⟨_, rfl⟩)
  refine ends_bind (onTree_ends fun _ _ => hwritten) ?_
  rintro _ _ ⟨hdone, rfl⟩
  refine ⟨hwritten, ⟨hnamed.trans hrel, data, hdata, writeBytes_stored hdone, rfl, rfl⟩, ?_⟩
  exact fun q node hq hnode => (writeBytes_keeps hq).trans (makeDirs_keeps hnode)

theorem Faithful.keeps {tree tree' : Tree} {entry : ManifestEntry}
    (h : Faithful env tree f entry)
    (hkeeps : ∀ node, tree (env.dest entry.path) = some node →
      tree' (env.dest entry.path) = some node) : Faithful env tree' f entry := by
  obtain ⟨data, hread, hfile, hsize, hsha⟩ := h.stored
  exact ⟨h.named, data, hread, hkeeps _ hfile, hsize, hsha⟩

/-- The uploads write their own files, and with different paths each keeps its content. -/
theorem uploadFiles_ends (h : StaysWithin env s₀ s) :
    Ends ((uploadFiles env k files).run s)
      (fun entries s' => StaysWithin env s₀ s' ∧
        (∀ q node, (∀ e ∈ entries, q ≠ env.dest e.path) → s.tree q = some node →
          s'.tree q = some node) ∧
        ((entries.map ManifestEntry.path).Nodup →
          List.Forall₂ (Faithful env s'.tree) files entries))
      (fun _ s' => StaysWithin env s₀ s') := by
  induction files generalizing k s with
  | nil => exact ⟨h, fun _ _ _ hq => hq, fun _ => .nil⟩
  | cons f files ih =>
      rw [uploadFiles]
      have hfirst := @uploadFile_ends env s s₀ k f h
      generalize uploadFile env k f = first at hfirst ⊢
      refine ends_bind hfirst ?_
      rintro entry s₁ ⟨h₁, hfaithful, hkeeps⟩
      refine ends_bind (ih h₁) ?_
      rintro entries s₂ ⟨h₂, hkeeps₂, hall⟩
      refine ⟨h₂, fun q node hq hnode => ?_, fun hnodup => ?_⟩
      · exact hkeeps₂ q node (fun e he => hq e (List.mem_cons_of_mem _ he))
          (hkeeps q node (hq entry List.mem_cons_self) hnode)
      · rw [List.map_cons, List.nodup_cons] at hnodup
        refine .cons (hfaithful.keeps fun node => hkeeps₂ _ node fun e he heq => ?_) (hall hnodup.2)
        exact hnodup.1 (dest_inj heq ▸ List.mem_map_of_mem he)

end Uploads

/-! ### The package -/

/-- A package that is created. -/
structure PackageCreated (env : UploadEnv) (user : Actor) (files : List Upload) (name : String)
    (s s' : PackageStore) (entries : List ManifestEntry) : Prop where
  distinct : (entries.map ManifestEntry.path).Nodup
  /-- The paths are made of names, so that they stay in the directory. -/
  inside : ∀ e ∈ entries, ∃ names, names ≠ [] ∧ (∀ n ∈ names, IsName n) ∧
    env.dest e.path = env.dirName :: names
  faithful : List.Forall₂ (Faithful env s'.tree) files entries
  package : s'.packages = s.packages ++ [env.packageRow user name entries]
  items : ∃ cs, chunkSize env.chunkRule = .ok cs ∧ s'.items = s.items ++ env.itemRows cs entries

/-- The call makes its directory. -/
def MakesDir (env : UploadEnv) (user : Actor) (files : List Upload) (s : PackageStore) : Prop :=
  checkUpload env user files = .ok () ∧ (makeDirs env.dirOs [] [env.dirName] s.tree).1 = true

section Creation

variable {env : UploadEnv} {user : Actor} {files : List Upload} {name : String}
  {entries : List ManifestEntry} {s s' s₀ : PackageStore}

theorem path_of_itemRows {cs : ℤ} (h : ((env.itemRows cs entries).map itemKey).Nodup) :
    (entries.map ManifestEntry.path).Nodup := by
  have hkeys : (env.itemRows cs entries).map itemKey =
      (entries.map ManifestEntry.path).map fun p => (env.packageId, p) := by
    refine List.ext_getElem? fun i => ?_
    rw [UploadEnv.itemRows, List.getElem?_map, List.getElem?_mapIdx, List.getElem?_map,
      List.getElem?_map, Option.map_map, Option.map_map]
    rfl
  rw [hkeys] at h
  exact h.of_map _

theorem addRows_ends (h : StaysWithin env s₀ s) :
    Ends ((addRows env user name entries).run s)
      (fun _ s' => s'.tree = s.tree ∧ (entries.map ManifestEntry.path).Nodup ∧
        s'.packages = s₀.packages ++ [env.packageRow user name entries] ∧
        ∃ cs, chunkSize env.chunkRule = .ok cs ∧ s'.items = s₀.items ++ env.itemRows cs entries)
      (fun _ s' => StaysWithin env s₀ s') := by
  rw [addRows]
  by_cases htakes : (!env.takesPackage (env.packageRow user name entries)) = true
  · rw [if_pos htakes]
    exact h
  · rw [if_neg htakes]
    refine ends_bind (attemptCall_ends fun _ => h) ?_
    rintro cs _ ⟨hcs, rfl⟩
    change Ends ((if _ then _ else _ : UploadM Unit).run s) _ _
    split_ifs with hkeys
    · refine ⟨rfl, ?_, ?_, cs, hcs, ?_⟩
      · have hitems := hkeys.1
        rw [List.map_append] at hitems
        exact path_of_itemRows (List.Nodup.of_append_right hitems)
      · exact congrArg (· ++ _) h.packages
      · exact congrArg (· ++ _) h.items
    · exact h

theorem inside_of_faithful {tree : Tree} (h : List.Forall₂ (Faithful env tree) files entries) :
    ∀ e ∈ entries, ∃ names, names ≠ [] ∧ (∀ n ∈ names, IsName n) ∧
      env.dest e.path = env.dirName :: names := by
  intro e he
  induction h with
  | nil => exact absurd he List.not_mem_nil
  | cons hfaithful _ ih =>
      rcases List.mem_cons.mp he with rfl | he
      · obtain ⟨names, hne, hnames, -, hsplit⟩ := safeRelPath_ok hfaithful.named
        exact ⟨names, hne, hnames, congrArg _ hsplit⟩
      · exact ih he

theorem makeDirs_one_of_not {os : Os} {n : List Char} {t : Tree}
    (h : (makeDirs os [] [n] t).1 ≠ true) : (makeDirs os [] [n] t).2 = t := by
  rw [makeDirs] at h ⊢
  split at h
  · exact absurd rfl h
  · rfl
  · split_ifs at h ⊢ with hmakes
    · exact absurd rfl h
    · rfl

end Creation

/-- A package that is created has different paths in its directory, with the files of its uploads.
A call that raises adds no row, and leaves files only in the directory that it has made. -/
theorem package_ends (env : UploadEnv) (user : Actor) (files : List Upload) (name : String)
    (s : PackageStore) :
    Ends ((createPackage env user files name).run s)
      (fun r s' => r.1 = env.packageId ∧ PackageCreated env user files name s s' r.2)
      (fun _ s' => StaysWithin env s s' ∧
        (¬ MakesDir env user files s → s'.tree = s.tree)) := by
  rw [createPackage]
  by_cases hcheck : checkUpload env user files = .ok ()
  · rw [hcheck]
    refine ends_bind (Q := fun _ s' => s = s') rfl ?_
    rintro - _ rfl
    have hdir : StaysWithin env s
        { s with tree := (makeDirs env.dirOs [] [env.dirName] s.tree).2 } :=
      (StaysWithin.refl s).onTree _ fun q hq => makeDirs_outside (fun n hn => by
        cases hn
        exact List.prefix_refl _) hq
    refine ends_bind
      (onTree_ends fun hrefused _ => ⟨hdir, fun _ => makeDirs_one_of_not hrefused⟩) ?_
    rintro _ _ ⟨hmade, rfl⟩
    have hmakes : MakesDir env user files s := ⟨hcheck, hmade⟩
    refine ends_bind ((uploadFiles_ends hdir).mono (fun _ _ h => h)
      fun _ s' h => ⟨h, fun hnot => absurd hmakes hnot⟩) ?_
    rintro entries s₁ ⟨h₁, -, hfaithful⟩
    cases hempty : entries.isEmpty with
    | true => exact ⟨h₁, fun hnot => absurd hmakes hnot⟩
    | false =>
        refine ends_bind ((addRows_ends h₁).mono (fun _ _ h => h)
          fun _ s' h => ⟨h, fun hnot => absurd hmakes hnot⟩) ?_
        rintro _ s₂ ⟨htree, hdistinct, hpackage, hitems⟩
        have hall := htree ▸ hfaithful hdistinct
        exact ⟨rfl, hdistinct, inside_of_faithful hall, hall, hpackage, hitems⟩
  · cases hresult : checkUpload env user files with
    | ok u => exact absurd hresult hcheck
    | error e => exact ⟨.refl s, fun _ => rfl⟩

/-- A store with nothing in it. -/
def bareStore : PackageStore := ⟨fun _ => none, [], []⟩

/-- A call that the system and the database answer. -/
def openStore : UploadEnv where
  featureRule := none
  chunkRule := none
  storeDir := "/srv/packages"
  dirName := ['d', '0']
  dirOs := .willing
  os _ := .willing
  sha256 _ := ""
  defaultName := "pkg-1"
  packageId := 1
  nextItemId := 1
  takesPackage _ := true
  takesItems _ := true

/-- An upload whose name goes up is refused, and the directory that was made for it stays. -/
theorem refused_upload_leaves_directory :
    ∃ s', (createPackage openStore ⟨1, true, [], fun _ => true⟩ [⟨some "../x", .ok [1]⟩] "").run
        bareStore = .error (.raised (.badRequest "invalid file path in upload")) s' ∧
      bareStore.tree [['d', '0']] = none ∧ s'.tree [['d', '0']] = some .dir :=
  ⟨_, rfl, rfl, rfl⟩

end LarkPlat
