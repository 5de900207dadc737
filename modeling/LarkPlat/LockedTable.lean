import LarkPlat.Programs
import Mathlib.Data.List.Basic

/-!
# A Table with an Event Log under Row Locks

Sessions write the rows of a table and append to its event log. A row that a session has written is
held until the session commits or breaks off: the statements of other sessions on the row wait until
then. A commit makes the rows and the entries of the session permanent; a session that breaks off
leaves nothing behind. A session reads whatever it has loaded at some time before, so the answer of
`select` is under no constraint.

`settling` is the discipline of programs that log each status change before they do anything else
but write the same row again. The store keeps the status changes that the statements have made
(`changes`), beside the log that the programs write.

## Main results

* `log_faithful`: after every interleaving of settling programs, the committed entries of a row
  that record a status change are exactly the committed status changes of the row, in order; they
  form a path of the permitted edges that ends in the status of the row.
-/

namespace LarkPlat.LockedTable

open Programs

/-! ### Tables and statements -/

/-- A change of the status of a row; a new row had no status. -/
structure Change (S : Type) where
  id : ℕ
  old : Option S
  new : S
  deriving DecidableEq, Repr

/-- What the table is about: what a session loads, the rows with their status, the entries of the
log with the status change that an entry records, if any, what is sent to others, and what a
program may raise. -/
structure Schema where
  View : Type
  Row : Type
  Entry : Type
  Message : Type
  Error : Type
  Status : Type
  status : Row → Status
  change : Entry → Option (Change Status)

/-- The statements of a session. -/
inductive Stmt (𝒮 : Schema) : Type → Type where
  /-- Read. -/
  | select : Stmt 𝒮 𝒮.View
  /-- `UPDATE … SET … WHERE id = … AND status = old AND guard`, which sets the status `new`. -/
  | cas (id : ℕ) (old new : 𝒮.Status) (guard : 𝒮.Row → Bool) (set : 𝒮.Row → 𝒮.Row) : Stmt 𝒮 Bool
  /-- `UPDATE … SET … WHERE id = …`. -/
  | write (id : ℕ) (set : 𝒮.Row → 𝒮.Row) : Stmt 𝒮 Unit
  /-- `INSERT`, with the identifier that the row gets. -/
  | insert (row : ℕ → 𝒮.Row) : Stmt 𝒮 ℕ
  /-- Append to the log. -/
  | log (e : 𝒮.Entry) : Stmt 𝒮 Unit
  /-- Send a message; it may commit. -/
  | send (m : 𝒮.Message) : Stmt 𝒮 Unit
  | commit : Stmt 𝒮 Unit
  | raise (e : 𝒮.Error) : Stmt 𝒮 Empty

variable {𝒮 : Schema}

/-- The table, as the sessions have written it and as it is committed. An entry of the log and a
status change carry the session that has not yet committed them. -/
structure Store (𝒮 : Schema) where
  row : ℕ → Option 𝒮.Row
  stable : ℕ → Option 𝒮.Row
  held : ℕ → Option ℕ
  log : List (Option ℕ × 𝒮.Entry)
  changes : List (Option ℕ × Change 𝒮.Status)
  next : ℕ

namespace Store

/-- The empty table. -/
def fresh : Store 𝒮 where
  row _ := none
  stable _ := none
  held _ := none
  log := []
  changes := []
  next := 0

/-- No other session holds the row. -/
def Free (s : Store 𝒮) (i id : ℕ) : Prop := s.held id = none ∨ s.held id = some i

/-- The status of a row, as it is written last. -/
def status? (s : Store 𝒮) (id : ℕ) : Option 𝒮.Status := (s.row id).map 𝒮.status

/-- A session writes a row. -/
def put [DecidableEq 𝒮.Status] (s : Store 𝒮) (i id : ℕ) (r : 𝒮.Row) : Store 𝒮 :=
  { s with
    row := Function.update s.row id (some r)
    held := Function.update s.held id (some i)
    changes := s.changes ++
      if s.status? id = some (𝒮.status r) then []
      else [(some i, ⟨id, s.status? id, 𝒮.status r⟩)] }

/-- What a commit of the session does to the mark of an entry. -/
def clear (i : ℕ) (tag : Option ℕ) : Option ℕ := if tag = some i then none else tag

/-- The session commits. -/
def commit (s : Store 𝒮) (i : ℕ) : Store 𝒮 :=
  { s with
    stable := fun id => if s.held id = some i then s.row id else s.stable id
    held := fun id => clear i (s.held id)
    log := s.log.map fun x => (clear i x.1, x.2)
    changes := s.changes.map fun x => (clear i x.1, x.2) }

/-- The session breaks off, and what it has not committed is rolled back. -/
def rollback (s : Store 𝒮) (i : ℕ) : Store 𝒮 :=
  { s with
    row := fun id => if s.held id = some i then s.stable id else s.row id
    held := fun id => clear i (s.held id)
    log := s.log.filter fun x => decide (x.1 ≠ some i)
    changes := s.changes.filter fun x => decide (x.1 ≠ some i) }

end Store

section

variable [DecidableEq 𝒮.Status]

/-- The statements of the session `i`. -/
inductive Exec (i : ℕ) : ∀ {β : Type}, Stmt 𝒮 β → Store 𝒮 → β → Store 𝒮 → Prop where
  | select (s : Store 𝒮) (v : 𝒮.View) : Exec i .select s v s
  | hit (s : Store 𝒮) {id : ℕ} {old new : 𝒮.Status} {guard : 𝒮.Row → Bool}
      {set : 𝒮.Row → 𝒮.Row} {r : 𝒮.Row} (hfree : s.Free i id) (hrow : s.row id = some r)
      (hold : 𝒮.status r = old) (hguard : guard r = true) :
      Exec i (.cas id old new guard set) s true (s.put i id (set r))
  | miss (s : Store 𝒮) {id : ℕ} {old new : 𝒮.Status} {guard : 𝒮.Row → Bool}
      {set : 𝒮.Row → 𝒮.Row} (hfree : s.Free i id)
      (hmiss : ∀ r, s.row id = some r → 𝒮.status r = old → guard r = false) :
      Exec i (.cas id old new guard set) s false s
  | write (s : Store 𝒮) {id : ℕ} {set : 𝒮.Row → 𝒮.Row} {r : 𝒮.Row} (hfree : s.Free i id)
      (hrow : s.row id = some r) : Exec i (.write id set) s () (s.put i id (set r))
  | writeNone (s : Store 𝒮) {id : ℕ} {set : 𝒮.Row → 𝒮.Row} (hrow : s.row id = none) :
      Exec i (.write id set) s () s
  | insert (s : Store 𝒮) (row : ℕ → 𝒮.Row) :
      Exec i (.insert row) s s.next { s.put i s.next (row s.next) with next := s.next + 1 }
  | log (s : Store 𝒮) (e : 𝒮.Entry) :
      Exec i (.log e) s () { s with log := s.log ++ [(some i, e)] }
  | send (s : Store 𝒮) (m : 𝒮.Message) : Exec i (.send m) s () s
  | sendCommit (s : Store 𝒮) (m : 𝒮.Message) : Exec i (.send m) s () (s.commit i)
  | commit (s : Store 𝒮) : Exec i .commit s () (s.commit i)

/-- The table as a server of sessions. -/
def server (𝒮 : Schema) [DecidableEq 𝒮.Status] : Server (Stmt 𝒮) (Store 𝒮) where
  exec i s store b store' := Exec i s store b store'
  abort i store := store.rollback i

/-! ### Programs that log what they change -/

/-- The discipline of a program that logs each status change, along a permitted edge, before it
does anything but read and write. Its state is the change that is not yet logged. -/
def settling (edge : Option 𝒮.Status → 𝒮.Status → Prop) :
    Discipline (Stmt 𝒮) (Option (Change 𝒮.Status)) where
  idle := none
  allowed
    | _, .select => True
    | d, .cas _ old new guard set => d = none ∧ (old ≠ new → edge (some old) new) ∧
        ∀ r, 𝒮.status r = old → guard r = true → 𝒮.status (set r) = new
    | d, .write id set => ∀ r, (∀ c, d = some c → c.id = id → 𝒮.status r = c.new) →
        𝒮.status (set r) = 𝒮.status r
    | d, .insert row => d = none ∧ ∀ id, edge none (𝒮.status (row id))
    | d, .log e => 𝒮.change e = d
    | d, .send _ => d = none
    | d, .commit => d = none
    | _, .raise _ => True
  after
    | d, .select, _ => d
    | _, .cas id old new _ _, hit =>
        if hit = true ∧ old ≠ new then some ⟨id, some old, new⟩ else none
    | d, .write _ _, _ => d
    | _, .insert row, id => some ⟨id, none, 𝒮.status (row id)⟩
    | _, .log _, _ => none
    | _, .send _, _ => none
    | _, .commit, _ => none
    | d, .raise _, _ => d

end

/-! ### The account of a row -/

/-- The status changes form a path of permitted edges from no status to the last one. -/
inductive Path {S : Type} (edge : Option S → S → Prop) : List (Change S) → Option S → Prop where
  | nil : Path edge [] none
  | snoc {l : List (Change S)} {x : Option S} {c : Change S} (h : Path edge l x) (hold : c.old = x)
      (hedge : edge x c.new) : Path edge (l ++ [c]) (some c.new)

/-- The committed ones among marked status changes. -/
def settled {S : Type} (l : List (Option ℕ × Change S)) : List (Change S) :=
  (l.filter fun x => decide (x.1 = none)).map Prod.snd

/-- What a session owes of a row. -/
def debt {S : Type} (i : ℕ) (d : Option (Change S)) (id : ℕ) : List (Option ℕ × Change S) :=
  match d with
  | none => []
  | some c => if c.id = id then [(some i, c)] else []

namespace Store

/-- The status changes of a row that the log records. -/
def recorded (s : Store 𝒮) (id : ℕ) : List (Option ℕ × Change 𝒮.Status) :=
  (s.log.filterMap fun x => (𝒮.change x.2).map fun c => (x.1, c)).filter
    fun x => decide (x.2.id = id)

/-- The status changes of a row. -/
def changed (s : Store 𝒮) (id : ℕ) : List (Option ℕ × Change 𝒮.Status) :=
  s.changes.filter fun x => decide (x.2.id = id)

/-- The change of a row that its holder has still to log. -/
def owed (s : Store 𝒮) (ds : ℕ → Option (Change 𝒮.Status)) (id : ℕ) :
    List (Option ℕ × Change 𝒮.Status) :=
  match s.held id with
  | none => []
  | some i => debt i (ds i) id

end Store

variable {edge : Option 𝒮.Status → 𝒮.Status → Prop} {s s' : Store 𝒮}
  {ds ds' : ℕ → Option (Change 𝒮.Status)} {i id : ℕ}

/-- The account of a row: the log records its changes, except for one that its holder owes; only
the holder has changes that are not committed; and the changes lead to the status, the committed
ones to the committed status. -/
structure RowSound (edge : Option 𝒮.Status → 𝒮.Status → Prop) (s : Store 𝒮)
    (ds : ℕ → Option (Change 𝒮.Status)) (id : ℕ) : Prop where
  account : s.recorded id ++ s.owed ds id = s.changed id
  marks : ∀ x ∈ s.changed id, x.1 = none ∨ x.1 = s.held id
  path : Path edge ((s.changed id).map Prod.snd) (s.status? id)
  stablePath : Path edge (settled (s.changed id)) ((s.stable id).map 𝒮.status)
  unheld : s.held id = none → s.row id = s.stable id

/-- The accounts of all rows. Who owes a change holds the row, which has the new status. -/
structure Sound (edge : Option 𝒮.Status → 𝒮.Status → Prop) (s : Store 𝒮)
    (ds : ℕ → Option (Change 𝒮.Status)) : Prop where
  rows : ∀ id, RowSound edge s ds id
  debts : ∀ i c, ds i = some c → s.held c.id = some i ∧ s.status? c.id = some c.new
  unused : ∀ id, s.next ≤ id → s.row id = none ∧ s.held id = none

theorem sound_fresh : Sound edge (Store.fresh : Store 𝒮) fun _ => none :=
  ⟨fun _ => ⟨rfl, (fun _ hx => (List.not_mem_nil hx).elim), .nil, .nil, fun _ => rfl⟩,
    (fun _ _ hc => by cases hc), fun _ _ => ⟨rfl, rfl⟩⟩

theorem RowSound.of_eq (h : RowSound edge s ds id) (hrec : s'.recorded id = s.recorded id)
    (howed : s'.owed ds' id = s.owed ds id) (hch : s'.changed id = s.changed id)
    (hheld : s'.held id = s.held id) (hrow : s'.row id = s.row id)
    (hstable : s'.stable id = s.stable id) : RowSound edge s' ds' id where
  account := by rw [hrec, howed, hch, h.account]
  marks := by
    rw [hch, hheld]
    exact h.marks
  path := by
    rw [hch, Store.status?, hrow]
    exact h.path
  stablePath := by
    rw [hch, hstable]
    exact h.stablePath
  unheld := by
    rw [hheld, hrow, hstable]
    exact h.unheld

theorem settled_debt {S : Type} (i : ℕ) (d : Option (Change S)) (id : ℕ) :
    settled (debt i d id) = [] := by
  cases d with
  | none => rfl
  | some c => by_cases hc : c.id = id <;> simp [debt, hc, settled]

theorem settled_append {S : Type} (l l' : List (Option ℕ × Change S)) :
    settled (l ++ l') = settled l ++ settled l' := by
  rw [settled, List.filter_append, List.map_append, settled, settled]

theorem owed_of_held (h : s.held id = some i) : s.owed ds id = debt i (ds i) id := by
  rw [Store.owed, h]

theorem owed_of_unheld (h : s.held id = none) : s.owed ds id = [] := by
  rw [Store.owed, h]

theorem owed_of_free (hfree : s.Free i id) (hi : ds i = none) : s.owed ds id = [] := by
  rcases hfree with hfree | hfree
  · exact owed_of_unheld hfree
  · rw [owed_of_held hfree, hi]
    rfl

theorem owed_update_of_ne (h : s.held id ≠ some i) (d : Option (Change 𝒮.Status)) :
    s.owed (Function.update ds i d) id = s.owed ds id := by
  cases hheld : s.held id with
  | none => rw [owed_of_unheld hheld, owed_of_unheld hheld]
  | some j =>
      have hj : j ≠ i := fun hc => h (hc ▸ hheld)
      rw [owed_of_held hheld, owed_of_held hheld, Function.update_of_ne hj]

theorem Sound.debt_of_ne (h : Sound edge s ds) (hid : s.held id ≠ some i) :
    debt i (ds i) id = [] := by
  cases hc : ds i with
  | none => rfl
  | some c => exact if_neg fun hcid : c.id = id => hid (hcid ▸ (h.debts i c hc).1)

theorem RowSound.marks_free (h : RowSound edge s ds id) (hfree : s.Free i id) :
    ∀ x ∈ s.changed id, x.1 = none ∨ x.1 = some i := by
  intro x hx
  rcases h.marks x hx with hm | hm
  · exact Or.inl hm
  · rcases hfree with hfree | hfree <;> rw [hfree] at hm
    · exact Or.inl hm
    · exact Or.inr hm

theorem Sound.debt_free (h : Sound edge s ds) (hfree : s.Free i id) {j : ℕ}
    {c : Change 𝒮.Status} (hc : ds j = some c) (hid : c.id = id) : j = i ∧ s.held id = some i := by
  have hheld := (h.debts j c hc).1
  rw [hid] at hheld
  rcases hfree with hfree | hfree
  · rw [hfree] at hheld
    cases hheld
  · rw [hfree] at hheld
    exact ⟨(Option.some.inj hheld).symm, hfree⟩

/-! ### The log, commits and aborts -/

theorem Sound.log (h : Sound edge s ds) (e : 𝒮.Entry) (he : 𝒮.change e = ds i) :
    Sound edge { s with log := s.log ++ [(some i, e)] } (Function.update ds i none) := by
  have hrec : ∀ id, ({ s with log := s.log ++ [(some i, e)] } : Store 𝒮).recorded id =
      s.recorded id ++ debt i (ds i) id := by
    intro id
    rw [Store.recorded, List.filterMap_append, List.filter_append, Store.recorded, ← he]
    cases hc : 𝒮.change e with
    | none => simp [hc, debt]
    | some c => by_cases hid : c.id = id <;> simp [hc, hid, debt]
  refine ⟨fun id => ?_, fun j c hc => ?_, h.unused⟩
  · have hrow := h.rows id
    refine ⟨?_, hrow.marks, hrow.path, hrow.stablePath, hrow.unheld⟩
    rw [hrec]
    change _ ++ s.owed (Function.update ds i none) id = s.changed id
    by_cases hid : s.held id = some i
    · have haccount := hrow.account
      rw [owed_of_held hid] at haccount ⊢
      rw [Function.update_self, haccount]
      exact List.append_nil _
    · rw [h.debt_of_ne hid, owed_update_of_ne hid, List.append_nil]
      exact hrow.account
  · by_cases hj : j = i
    · rw [hj, Function.update_self] at hc
      cases hc
    · rw [Function.update_of_ne hj] at hc
      exact h.debts j c hc

namespace Store

theorem recorded_commit (s : Store 𝒮) (i id : ℕ) :
    (s.commit i).recorded id = (s.recorded id).map fun x => (clear i x.1, x.2) := by
  rw [recorded, commit, recorded, List.filterMap_map, List.filter_filterMap,
    List.filter_filterMap, List.map_filterMap]
  refine List.filterMap_congr fun x _ => ?_
  rw [Function.comp_apply]
  cases 𝒮.change x.2 with
  | none => rfl
  | some c => by_cases hid : c.id = id <;> simp [hid, Option.filter_some]

theorem changed_commit (s : Store 𝒮) (i id : ℕ) :
    (s.commit i).changed id = (s.changed id).map fun x => (clear i x.1, x.2) := by
  rw [changed, commit, changed, List.filter_map]
  rfl

theorem recorded_rollback (s : Store 𝒮) (i id : ℕ) :
    (s.rollback i).recorded id = (s.recorded id).filter fun x => decide (x.1 ≠ some i) := by
  rw [recorded, rollback, recorded, List.filterMap_filter, List.filter_filterMap,
    List.filter_filterMap, List.filter_filterMap]
  refine List.filterMap_congr fun x _ => ?_
  cases 𝒮.change x.2 with
  | none => by_cases hx : x.1 = some i <;> simp [hx]
  | some c =>
      by_cases hx : x.1 = some i <;> by_cases hid : c.id = id <;>
        simp [hx, hid, Option.filter_some]

theorem changed_rollback (s : Store 𝒮) (i id : ℕ) :
    (s.rollback i).changed id = (s.changed id).filter fun x => decide (x.1 ≠ some i) := by
  rw [changed, rollback, changed, List.filter_filter, List.filter_filter]
  simp only [Bool.and_comm]

end Store

theorem clear_of_ne {tag : Option ℕ} (h : tag ≠ some i) : Store.clear i tag = tag := if_neg h

theorem clear_self : Store.clear i (some i) = none := if_pos rfl

theorem RowSound.mark_ne (h : RowSound edge s ds id) (hid : s.held id ≠ some i) :
    ∀ x ∈ s.changed id, x.1 ≠ some i := by
  intro x hx
  rcases h.marks x hx with hm | hm <;> rw [hm]
  · exact fun hc => by cases hc
  · exact hid

theorem Sound.commit (h : Sound edge s ds) (hi : ds i = none) : Sound edge (s.commit i) ds := by
  refine ⟨fun id => ?_, fun j c hc => ?_, fun id hid => ?_⟩
  · have hrow := h.rows id
    have hch := s.changed_commit i id
    by_cases hid : s.held id = some i
    · -- the row is released, and everything on it is committed
      have hheld : (s.commit i).held id = none := (congrArg (Store.clear i) hid).trans clear_self
      have hstable : (s.commit i).stable id = s.row id := if_pos hid
      have hmarks : ∀ x ∈ s.changed id, Store.clear i x.1 = none := by
        intro x hx
        rcases hrow.marks_free (Or.inr hid) x hx with hm | hm <;> rw [hm]
        · exact clear_of_ne fun hc => by cases hc
        · exact clear_self
      refine ⟨?_, ?_, ?_, ?_, fun _ => hstable.symm⟩
      · have haccount := hrow.account
        rw [owed_of_free (Or.inr hid) hi, List.append_nil] at haccount
        rw [owed_of_unheld hheld, List.append_nil, s.recorded_commit, hch, haccount]
      · rw [hch]
        intro x hx
        obtain ⟨y, hy, rfl⟩ := List.mem_map.mp hx
        exact Or.inl (hmarks y hy)
      · rw [hch, List.map_map]
        exact hrow.path
      · have hsettled : settled ((s.changed id).map fun x => (Store.clear i x.1, x.2)) =
            (s.changed id).map Prod.snd := by
          rw [settled, List.filter_eq_self.mpr, List.map_map]
          · rfl
          · intro x hx
            obtain ⟨y, hy, rfl⟩ := List.mem_map.mp hx
            exact decide_eq_true (hmarks y hy)
        rw [hch, hsettled, hstable]
        exact hrow.path
    · have hheld : (s.commit i).held id = s.held id := clear_of_ne hid
      have hsame : ∀ x ∈ s.changed id, (Store.clear i x.1, x.2) = x := fun x hx =>
        Prod.ext (clear_of_ne (hrow.mark_ne hid x hx)) rfl
      have hrec : ∀ x ∈ s.recorded id, (Store.clear i x.1, x.2) = x := fun x hx =>
        hsame x (hrow.account ▸ List.mem_append_left _ hx)
      refine hrow.of_eq ?_ ?_ ?_ hheld rfl (if_neg hid)
      · rw [s.recorded_commit, List.map_congr_left hrec, List.map_id']
      · rw [Store.owed, hheld, Store.owed]
      · rw [hch, List.map_congr_left hsame, List.map_id']
  · obtain ⟨hheld, hnew⟩ := h.debts j c hc
    have hj : j ≠ i := fun hj => by
      rw [hj, hi] at hc
      cases hc
    refine ⟨(clear_of_ne ?_).trans hheld, hnew⟩
    rw [hheld]
    exact fun hc => hj (Option.some.inj hc)
  · obtain ⟨hrow, hheld⟩ := h.unused id hid
    refine ⟨hrow, (clear_of_ne ?_).trans hheld⟩
    rw [hheld]
    exact fun hc => by cases hc

theorem Sound.rollback (h : Sound edge s ds) (i : ℕ) :
    Sound edge (s.rollback i) (Function.update ds i none) := by
  refine ⟨fun id => ?_, fun j c hc => ?_, fun id hid => ?_⟩
  · have hrow := h.rows id
    have hch := s.changed_rollback i id
    by_cases hid : s.held id = some i
    · have hheld : (s.rollback i).held id = none := (congrArg (Store.clear i) hid).trans clear_self
      have hback : (s.rollback i).row id = s.stable id := if_pos hid
      -- what is left are the committed changes
      have hfilter : (s.changed id).filter (fun x => decide (x.1 ≠ some i)) =
          (s.changed id).filter fun x => decide (x.1 = none) := by
        refine List.filter_congr fun x hx => ?_
        rcases hrow.marks_free (Or.inr hid) x hx with hm | hm <;> rw [hm] <;> simp
      have hpath : Path edge (((s.changed id).filter fun x => decide (x.1 = none)).map Prod.snd)
          ((s.stable id).map 𝒮.status) := hrow.stablePath
      refine ⟨?_, ?_, ?_, ?_, fun _ => hback⟩
      · have haccount := congrArg (List.filter fun x => decide (x.1 ≠ some i)) hrow.account
        have howed : (debt i (ds i) id).filter (fun x => decide (x.1 ≠ some i)) = [] := by
          cases ds i with
          | none => rfl
          | some c => by_cases hc : c.id = id <;> simp [debt, hc]
        rw [List.filter_append, owed_of_held hid, howed, List.append_nil] at haccount
        rw [owed_of_unheld hheld, List.append_nil, s.recorded_rollback, hch, haccount]
      · rw [hch, hfilter]
        intro x hx
        exact Or.inl (of_decide_eq_true (List.mem_filter.mp hx).2)
      · rw [hch, hfilter, Store.status?, hback]
        exact hpath
      · change Path edge _ ((s.stable id).map 𝒮.status)
        rw [hch, hfilter, settled, List.filter_filter]
        simpa using hpath
    · have hheld : (s.rollback i).held id = s.held id := clear_of_ne hid
      have hsame : ∀ x ∈ s.changed id, decide (x.1 ≠ some i) = true := fun x hx =>
        decide_eq_true (hrow.mark_ne hid x hx)
      have hrec : ∀ x ∈ s.recorded id, decide (x.1 ≠ some i) = true := fun x hx =>
        hsame x (hrow.account ▸ List.mem_append_left _ hx)
      refine hrow.of_eq ?_ ?_ ?_ hheld (if_neg hid) rfl
      · rw [s.recorded_rollback, List.filter_eq_self.mpr hrec]
      · rw [Store.owed, hheld]
        exact owed_update_of_ne hid none
      · rw [hch, List.filter_eq_self.mpr hsame]
  · by_cases hj : j = i
    · rw [hj, Function.update_self] at hc
      cases hc
    · rw [Function.update_of_ne hj] at hc
      obtain ⟨hheld, hnew⟩ := h.debts j c hc
      have hne : s.held c.id ≠ some i := by
        rw [hheld]
        exact fun hc => hj (Option.some.inj hc)
      refine ⟨(clear_of_ne hne).trans hheld, ?_⟩
      rw [← hnew, Store.status?, Store.status?, Store.rollback]
      dsimp only
      rw [if_neg hne]
  · obtain ⟨hrow, hheld⟩ := h.unused id hid
    have hne : s.held id ≠ some i := by
      rw [hheld]
      exact fun hc => by cases hc
    exact ⟨(if_neg hne).trans hrow, (clear_of_ne hne).trans hheld⟩

section

variable [DecidableEq 𝒮.Status]

/-! ### Statements and the account -/

namespace Store

variable (s) (i id) (r : 𝒮.Row)

@[simp] theorem put_row_self : (s.put i id r).row id = some r := Function.update_self _ _ _

@[simp] theorem put_held_self : (s.put i id r).held id = some i := Function.update_self _ _ _

@[simp] theorem put_stable : (s.put i id r).stable = s.stable := rfl

@[simp] theorem put_recorded (id' : ℕ) : (s.put i id r).recorded id' = s.recorded id' := rfl

@[simp] theorem put_status_self : (s.put i id r).status? id = some (𝒮.status r) := by
  rw [status?, put_row_self, Option.map_some]

variable {s i id r} {id' : ℕ} (hne : id' ≠ id)

include hne

theorem put_row_ne : (s.put i id r).row id' = s.row id' := Function.update_of_ne hne _ _

theorem put_held_ne : (s.put i id r).held id' = s.held id' := Function.update_of_ne hne _ _

theorem put_status_ne : (s.put i id r).status? id' = s.status? id' := by
  rw [status?, put_row_ne hne, status?]

theorem put_changed_ne : (s.put i id r).changed id' = s.changed id' := by
  have hnot : decide (id = id') = false := decide_eq_false hne.symm
  rw [changed, put, changed, List.filter_append]
  split_ifs
  · exact List.append_nil _
  · rw [List.filter_cons, hnot]
    exact List.append_nil _

omit hne

theorem put_changed_self (hst : s.status? id ≠ some (𝒮.status r)) :
    (s.put i id r).changed id = s.changed id ++ [(some i, ⟨id, s.status? id, 𝒮.status r⟩)] := by
  rw [changed, put, if_neg hst, changed, List.filter_append, List.filter_cons,
    decide_eq_true rfl]
  rfl

theorem put_changed_same (hst : s.status? id = some (𝒮.status r)) (id' : ℕ) :
    (s.put i id r).changed id' = s.changed id' := by
  rw [changed, put, if_pos hst, List.append_nil]
  rfl

end Store

open Store

theorem RowSound.put_ne (h : RowSound edge s ds id) {id' : ℕ} (hne : id ≠ id') (r : 𝒮.Row)
    (howed : (s.put i id' r).owed ds' id = s.owed ds id) :
    RowSound edge (s.put i id' r) ds' id :=
  h.of_eq (put_recorded _ _ _ _ _) howed (put_changed_ne hne) (put_held_ne hne) (put_row_ne hne) rfl

theorem Sound.put_same (h : Sound edge s ds) (hfree : s.Free i id) {r : 𝒮.Row}
    (hst : s.status? id = some (𝒮.status r)) : Sound edge (s.put i id r) ds := by
  have howed : (s.put i id r).owed ds id = s.owed ds id := by
    rcases hfree with hnone | hsome
    · -- nobody owes a change of a row that is not held
      have hnot : ∀ c, ds i = some c → ¬ c.id = id := by
        intro c hc hid
        have hheld := (h.debts i c hc).1
        rw [hid, hnone] at hheld
        cases hheld
      rw [owed_of_unheld hnone, owed_of_held (put_held_self _ _ _ _)]
      cases hi : ds i with
      | none => rfl
      | some c => exact if_neg (hnot c hi)
    · rw [owed_of_held hsome, owed_of_held (put_held_self _ _ _ _)]
  refine ⟨fun id' => ?_, fun j c hc => ?_, fun id' hid' => ?_⟩
  · have hrow := h.rows id'
    by_cases hid : id' = id
    · subst hid
      have hch : (s.put i id' r).changed id' = s.changed id' := put_changed_same hst id'
      refine ⟨?_, ?_, ?_, ?_, fun hnone => ?_⟩
      · rw [howed, hch]
        exact hrow.account
      · rw [hch, put_held_self]
        exact hrow.marks_free hfree
      · rw [hch, put_status_self, ← hst]
        exact hrow.path
      · rw [hch]
        exact hrow.stablePath
      · rw [put_held_self] at hnone
        cases hnone
    · refine hrow.put_ne hid r ?_
      rw [owed, put_held_ne hid]
      rfl
  · obtain ⟨hheld, hnew⟩ := h.debts j c hc
    by_cases hid : c.id = id
    · obtain ⟨rfl, -⟩ := h.debt_free hfree hc hid
      rw [hid] at hnew ⊢
      rw [put_held_self, put_status_self, ← hst]
      exact ⟨rfl, hnew⟩
    · rw [put_held_ne hid, put_status_ne hid]
      exact ⟨hheld, hnew⟩
  · obtain ⟨hrow, hheld⟩ := h.unused id' hid'
    have hid : id' ≠ id := by
      intro hc
      rw [← hc, status?, hrow] at hst
      cases hst
    rw [put_row_ne hid, put_held_ne hid]
    exact ⟨hrow, hheld⟩

/-- A statement of a session without debt that changes the status of its row along an edge. -/
theorem Sound.put_change (h : Sound edge s ds) (hfree : s.Free i id) (hi : ds i = none)
    {r : 𝒮.Row} (hst : s.status? id ≠ some (𝒮.status r)) (hedge : edge (s.status? id) (𝒮.status r))
    (hused : id < s.next) :
    Sound edge (s.put i id r)
      (Function.update ds i (some ⟨id, s.status? id, 𝒮.status r⟩)) := by
  set c : Change 𝒮.Status := ⟨id, s.status? id, 𝒮.status r⟩ with hc
  have hch : (s.put i id r).changed id = s.changed id ++ [(some i, c)] := put_changed_self hst
  refine ⟨fun id' => ?_, fun j c' hc' => ?_, fun id' hid' => ?_⟩
  · have hrow := h.rows id'
    by_cases hid : id' = id
    · subst hid
      refine ⟨?_, ?_, ?_, ?_, fun hnone => ?_⟩
      · have haccount := hrow.account
        rw [owed_of_free hfree hi, List.append_nil] at haccount
        have howed : (s.put i id' r).owed (Function.update ds i (some c)) id' = [(some i, c)] := by
          rw [owed_of_held (put_held_self _ _ _ _), Function.update_self]
          exact if_pos rfl
        rw [hch, howed, put_recorded, haccount]
      · rw [hch, put_held_self]
        intro x hx
        rcases List.mem_append.mp hx with hx | hx
        · exact hrow.marks_free hfree x hx
        · exact Or.inr (List.mem_singleton.mp hx ▸ rfl)
      · rw [hch, put_status_self, List.map_append]
        exact .snoc hrow.path rfl hedge
      · have hsettled : settled (s.changed id' ++ [(some i, c)]) = settled (s.changed id') := by
          rw [settled, List.filter_append, List.filter_cons, if_neg (by simp), List.filter_nil,
            List.append_nil, settled]
        rw [hch, hsettled]
        exact hrow.stablePath
      · rw [put_held_self] at hnone
        cases hnone
    · refine hrow.put_ne hid r ?_
      rw [owed, put_held_ne hid]
      change s.owed (Function.update ds i (some c)) id' = s.owed ds id'
      by_cases hheld : s.held id' = some i
      · rw [owed_of_held hheld, owed_of_held hheld, Function.update_self, hi]
        exact if_neg (Ne.symm hid)
      · exact owed_update_of_ne hheld _
  · by_cases hj : j = i
    · subst hj
      rw [Function.update_self] at hc'
      obtain rfl := Option.some.inj hc'
      exact ⟨put_held_self _ _ _ _, put_status_self _ _ _ _⟩
    · rw [Function.update_of_ne hj] at hc'
      have hid : c'.id ≠ id := fun hid => hj (h.debt_free hfree hc' hid).1
      rw [put_held_ne hid, put_status_ne hid]
      exact h.debts j c' hc'
  · have hid : id' ≠ id := fun hid => absurd hid' (Nat.not_le.mpr (hid ▸ hused))
    rw [put_row_ne hid, put_held_ne hid]
    exact h.unused id' hid'

/-- **One statement.** A permitted statement keeps the accounts. -/
theorem Sound.exec {β : Type} {st : Stmt 𝒮 β} {b : β} (h : Sound edge s ds)
    (hallowed : (settling edge).allowed (ds i) st) (hx : Exec i st s b s') :
    Sound edge s' (Function.update ds i ((settling edge).after (ds i) st b)) := by
  have hself : Function.update ds i (ds i) = ds := Function.update_eq_self i ds
  have hnone : ds i = none → Function.update ds i none = ds := fun hi => hi ▸ hself
  cases hx with
  | select _ v => exact hself.symm ▸ h
  | @hit _ id old new guard set r hfree hrow hold hguard =>
      obtain ⟨hi, hedge, hset⟩ := hallowed
      have hnew : 𝒮.status (set r) = new := hset r hold hguard
      have hst : s.status? id = some old := by rw [status?, hrow, Option.map_some, hold]
      by_cases hsame : old = new
      · have hafter : (settling edge).after (ds i) (.cas id old new guard set) true = none :=
          if_neg fun hc => hc.2 hsame
        rw [hafter, hnone hi]
        exact h.put_same hfree (by rw [hst, hnew, hsame])
      · have hafter : (settling edge).after (ds i) (.cas id old new guard set) true =
            some ⟨id, some old, new⟩ := if_pos ⟨rfl, hsame⟩
        have hused : id < s.next := by
          by_contra hc
          rw [(h.unused id (Nat.not_lt.mp hc)).1] at hrow
          cases hrow
        have hput := h.put_change hfree hi (r := set r)
          (by rw [hst, hnew]; exact fun hc => hsame (Option.some.inj hc))
          (by rw [hst, hnew]; exact hedge hsame) hused
        rw [hst, hnew] at hput
        exact hafter ▸ hput
  | @miss _ id old new guard set hfree hmiss =>
      have hafter : (settling edge).after (ds i) (.cas id old new guard set) false = none := rfl
      rw [hafter, hnone hallowed.1]
      exact h
  | @write _ id set r hfree hrow =>
      have hst : s.status? id = some (𝒮.status r) := by rw [status?, hrow, Option.map_some]
      have hkeep : 𝒮.status (set r) = 𝒮.status r := by
        refine hallowed r fun c hc hid => ?_
        have hnew := (h.debts i c hc).2
        rw [hid, hst] at hnew
        exact Option.some.inj hnew
      exact hself.symm ▸ h.put_same hfree (by rw [hst, hkeep])
  | writeNone _ hrow => exact hself.symm ▸ h
  | insert _ row =>
      obtain ⟨hi, hedge⟩ := hallowed
      obtain ⟨hrow, hheld⟩ := h.unused s.next (Nat.le_refl _)
      have hst : s.status? s.next = none := by rw [status?, hrow, Option.map_none]
      -- the identifier is drawn before the row is there
      set s₁ : Store 𝒮 := { s with next := s.next + 1 } with hs₁
      have hnext : Sound edge s₁ ds :=
        ⟨fun id => (h.rows id).of_eq rfl rfl rfl rfl rfl rfl, h.debts,
          fun id hid => h.unused id (Nat.le_of_succ_le hid)⟩
      have hst₁ : s₁.status? s.next = none := hst
      have hput := hnext.put_change (show s₁.Free i s.next from Or.inl hheld) hi (r := row s.next)
        (by rw [hst₁]; exact fun hc => by cases hc) (by rw [hst₁]; exact hedge s.next)
        (Nat.lt_succ_self _)
      rw [hst₁] at hput
      exact hput
  | log _ e => exact h.log e hallowed
  | send _ m => exact (hnone hallowed).symm ▸ h
  | sendCommit _ m => exact (hnone hallowed).symm ▸ h.commit hallowed
  | commit _ => exact (hnone hallowed).symm ▸ h.commit hallowed

/-- **The log is faithful.** However the sessions interleave, commit and break off: the committed
entries of a row that record a status change are its committed status changes, one for each and in
order, and they lead along permitted edges from no status to its committed status. -/
theorem log_faithful {starts : Prog (Stmt 𝒮) Unit → Prop}
    (hstarts : ∀ p, starts p → p.Obeys (settling edge) none none) {c : Config (Stmt 𝒮) (Store 𝒮)}
    (hsteps : Relation.ReflTransGen (Step (server 𝒮) starts) ⟨fresh, fun _ => none⟩ c) (id : ℕ) :
    settled (c.store.recorded id) = settled (c.store.changed id) ∧
      Path edge (settled (c.store.recorded id)) ((c.store.stable id).map 𝒮.status) := by
  have hfresh : Disciplined (settling edge) (fun _ => none) fun _ => none := fun _ => rfl
  obtain ⟨ds, h, -⟩ := interleaving_invariant hstarts
    (fun _ _ _ _ _ _ _ hallowed hx h => h.exec hallowed hx) (fun i _ _ h => h.rollback i)
    ⟨_, sound_fresh, hfresh⟩ hsteps
  have hrow := h.rows id
  have hsame : settled (c.store.recorded id) = settled (c.store.changed id) := by
    have howed : settled (c.store.owed ds id) = [] := by
      cases hheld : c.store.held id with
      | none => rw [owed_of_unheld hheld]; rfl
      | some j => rw [owed_of_held hheld]; exact settled_debt _ _ _
    rw [← hrow.account, settled_append, howed, List.append_nil]
  exact ⟨hsame, hsame ▸ hrow.stablePath⟩

end

end LarkPlat.LockedTable
