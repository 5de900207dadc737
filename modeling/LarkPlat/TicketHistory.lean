import LarkPlat.HostReferences
import LarkPlat.Tickets

/-!
# Histories of Tickets

Of the three calls that add references, `add_ref` looks for the reference first. `create_ticket`
adds one for each host of its list, and `done_ticket` adds one again after the ticket has been
reopened. An attachment is written over what has its name in the directory of the ticket.

## Main results

* `attachFiles_ends`: the loop over the uploads writes `writtenFiles`, in this order.
* `step_keeps`, `step_no_refKey`: what a call preserves that repeats no reference and writes no
  other bytes over an attachment.
* `desk_stays_clean`: along every history of such calls the references of a ticket are different, no
  call violates their key, and the attachments hold what was sent.
-/

namespace LarkPlat

open Faults FileTree SlashPaths Transfers Machine Cmdb

/-! ### What should hold -/

section Claims

variable (storeDir : String)

/-- The file of an attachment, at the path of its package, holds the bytes that were sent, and both
rows have their number. -/
def TicketDesk.Holds (s : TicketDesk) (a : TicketAttachment) : Prop :=
  ∃ pkg, Table.find PackageRow.id s.packages a.fileId = some pkg ∧
    fileAt storeDir s.tree pkg.storePath = some (.file a.sent) ∧
    a.size = a.sent.length ∧ pkg.totalSize = a.sent.length

/-- The references of each ticket are different, a reference that is added again changes nothing,
and the attachments hold what was sent. -/
structure TicketDesk.Clean (s : TicketDesk) : Prop where
  refs : ∀ t ∈ s.tickets, t.refs.Nodup
  idempotent : ∀ env ticketId refType refId t, checkRef env ticketId refType s = .ok t →
    (refType, refId) ∈ t.refs → addRef env ticketId refType refId s = .ok (s, false)
  attachments : ∀ a ∈ s.attachments, s.Holds storeDir a

/-- The call fails with a violation of the unique key of the references. -/
def TicketCall.ViolatesKey (op : TicketCall) (s : TicketDesk) : Prop :=
  ∃ s', (op.program storeDir).run s = .error .refKey s'

end Claims

/-! ### What the uploads write -/

section Touches

variable (storeDir : String) (env : DeskEnv) (userId ticketId : ℕ)

/-- The names that the loop over the uploads writes, with the bytes that are there afterwards: up to
the first upload that is not done. -/
def writtenFiles (packages : List PackageRow) : Tree → ℕ → List Upload →
    List (PackageRow × TicketAttachment) → List (String × List UInt8)
  | _, _, [], _ => []
  | t, k, f :: files, pending =>
      let dest := attachmentDest ticketId (attachmentName f)
      match f.read with
      | .error _ => []
      | .ok data =>
          if t dest = some .dir ∨ t dest.dropLast ≠ some .dir then []
          else
            match (env.os k).writes dest with
            | .refused => []
            | .cut n => [(attachmentName f, data.take n)]
            | .done =>
                (attachmentName f, data) ::
                  if Flushes env packages pending k then
                    writtenFiles packages (Function.update t dest (some (.file data))) (k + 1) files
                      (pending ++ [attachmentRows storeDir env userId ticketId k f data])
                  else []

end Touches

/-- What `add_attachments` writes. -/
def attachWrites (storeDir : String) (env : DeskEnv) (userId ticketId : ℕ) (files : List Upload)
    (s : TicketDesk) : List (String × List UInt8) :=
  match checkAttach env ticketId files s with
  | .error _ => []
  | .ok () =>
      let made := makeDirs env.dirOs [] (ticketDir ticketId) s.tree
      if made.1 then writtenFiles storeDir env userId ticketId s.packages made.2 0 files [] else []

/-- The tree after some names have been written. -/
def putFiles (ticketId : ℕ) : Tree → List (String × List UInt8) → Tree
  | t, [] => t
  | t, x :: written =>
      putFiles ticketId (Function.update t (attachmentDest ticketId x.1) (some (.file x.2))) written

theorem putFiles_of_same {ticketId : ℕ} {t : Tree} {written : List (String × List UInt8)} {q : Path}
    {data : List UInt8} (hsame : ∀ x ∈ written, attachmentDest ticketId x.1 = q → x.2 = data)
    (h : t q = some (.file data) ∨ ∃ x ∈ written, attachmentDest ticketId x.1 = q) :
    putFiles ticketId t written q = some (.file data) := by
  induction written generalizing t with
  | nil => exact h.resolve_right fun ⟨x, hx, _⟩ => absurd hx List.not_mem_nil
  | cons x written ih =>
      refine ih (fun y hy => hsame y (List.mem_cons_of_mem _ hy)) ?_
      by_cases hdest : attachmentDest ticketId x.1 = q
      · left
        rw [hdest, Function.update_self, hsame x List.mem_cons_self hdest]
      · rw [Function.update_of_ne fun heq => hdest heq.symm]
        rcases h with h | ⟨y, hy, hyq⟩
        · exact .inl h
        · rcases List.mem_cons.mp hy with rfl | hy
          · exact absurd hyq hdest
          · exact .inr ⟨y, hy, hyq⟩

/-! ### Names -/

section Names

variable {ticketId ticketId' : ℕ} {name name' : String} {t : Tree}

theorem isName_natText (n : ℕ) : IsName (toString n).toList := by
  have hdigits : ∀ c ∈ (toString n).toList, c.isDigit = true := by
    intro c hc
    rw [show (toString n).toList = Nat.toDigits 10 n from Nat.toList_repr] at hc
    exact Nat.isDigit_of_mem_toDigits (by decide) (by decide) hc
  refine ⟨?_, ?_, ?_, ?_⟩
  · rw [show (toString n).toList = Nat.toDigits 10 n from Nat.toList_repr]
    exact Nat.toDigits_ne_nil
  · exact fun h => absurd (hdigits '.' (h ▸ List.mem_cons_self)) (by decide)
  · exact fun h => absurd (hdigits '.' (h ▸ List.mem_cons_self)) (by decide)
  · exact fun h => absurd (hdigits '/' h) (by decide)

theorem isName_ticketDir : ∀ n ∈ ticketDir ticketId, IsName n := by
  intro n hn
  rcases List.mem_cons.mp hn with rfl | hn
  · exact ⟨by decide, by decide, by decide, by decide⟩
  · rw [List.mem_singleton.mp hn]
    exact isName_natText ticketId

theorem attachmentDest_name (hname : IsName name.toList) :
    attachmentDest ticketId name = ticketDir ticketId ++ [name.toList] :=
  walk_name hname

theorem attachmentDest_inj (hname : IsName name.toList) (hname' : IsName name'.toList)
    (h : attachmentDest ticketId name = attachmentDest ticketId' name') :
    ticketId = ticketId' ∧ name = name' := by
  rw [attachmentDest_name hname, attachmentDest_name hname'] at h
  have hlists := List.cons.inj (List.cons.inj h).2
  exact ⟨natText_inj (String.toList_inj.mp hlists.1),
    String.toList_inj.mp (List.cons.inj hlists.2).1⟩

theorem fileAt_attachmentPath (storeDir : String) (hname : IsName name.toList) :
    fileAt storeDir t (attachmentPath storeDir ticketId name) =
      t (attachmentDest ticketId name) := by
  have hnames : ∀ n ∈ attachmentDest ticketId name, IsName n := by
    rw [attachmentDest_name hname]
    intro n hn
    rcases List.mem_append.mp hn with hn | hn
    · exact isName_ticketDir n hn
    · rw [List.mem_singleton.mp hn]
      exact hname
  rw [fileAt, attachmentPath, String.toList_append, String.toList_ofList, List.drop_left,
    resolve_slash_joined hnames]

theorem slash_notMem_attachmentName (f : Upload) : '/' ∉ (attachmentName f).toList := by
  intro h
  rw [attachmentName, basename, String.toList_ofList, List.mem_reverse] at h
  exact absurd (List.mem_takeWhile_imp h) (by decide)

theorem isName_of_writable {f : Upload} (htickets : t ["tickets".toList] = some .dir)
    (hdir : t (ticketDir ticketId) = some .dir)
    (h : t (attachmentDest ticketId (attachmentName f)) ≠ some .dir) :
    IsName (attachmentName f).toList := by
  refine ⟨fun hname => ?_, fun hname => ?_, fun hname => ?_, slash_notMem_attachmentName f⟩
  all_goals rw [attachmentDest, hname] at h
  · exact h hdir
  · exact h hdir
  · exact h htickets

end Names

/-! ### The loop over the uploads -/

/-- The rows of an upload belong together. -/
structure RowsOf (storeDir : String) (ticketId : ℕ) (r : PackageRow × TicketAttachment) : Prop where
  file : r.1.id = r.2.fileId
  path : r.1.storePath = attachmentPath storeDir ticketId r.2.filename
  ticket : r.2.ticketId = ticketId
  name : IsName r.2.filename.toList
  size : r.2.size = r.2.sent.length
  total : r.1.totalSize = r.2.sent.length

section Loop

variable {storeDir : String} {env : DeskEnv} {userId ticketId k : ℕ} {files : List Upload}
  {pending : List (PackageRow × TicketAttachment)} {s : TicketDesk} {op : Tree → Bool × Tree}

/-- A call of the operating system that is done returns with the tree that it leaves. -/
theorem onDeskTree_done {t : Tree} (h : op s.tree = (true, t)) :
    (onDeskTree op).run s = .ok () { s with tree := t } := by
  change (if (op s.tree).1 then _ else _) = _
  rw [h]
  rfl

theorem onDeskTree_failed {t : Tree} (h : op s.tree = (false, t)) :
    (onDeskTree op).run s = .error .osError { s with tree := t } := by
  change (if (op s.tree).1 then _ else _) = _
  rw [h]
  rfl

/-- The rows that the loop over the uploads adds to those that are pending, which have the names and
the bytes that were written. -/
structure Attached (storeDir : String) (ticketId : ℕ) (packages : List PackageRow)
    (pending rows : List (PackageRow × TicketAttachment)) (w : List (String × List UInt8)) :
    Prop where
  rows : ∃ new, rows = pending ++ new ∧ (new.map fun r => (r.2.filename, r.2.sent)) = w ∧
    (∀ r ∈ new, RowsOf storeDir ticketId r ∧
      r.1.id ∉ (packages ++ pending.map Prod.fst).map PackageRow.id) ∧
    (new.map fun r => r.1.id).Nodup

theorem Attached.cons {packages : List PackageRow} {rows : List (PackageRow × TicketAttachment)}
    {w : List (String × List UInt8)} {r : PackageRow × TicketAttachment}
    (hr : RowsOf storeDir ticketId r)
    (hfresh : r.1.id ∉ (packages ++ pending.map Prod.fst).map PackageRow.id)
    (h : Attached storeDir ticketId packages (pending ++ [r]) rows w) :
    Attached storeDir ticketId packages pending rows ((r.2.filename, r.2.sent) :: w) := by
  obtain ⟨new, rfl, rfl, hrows, hnodup⟩ := h.rows
  have hids (r' : PackageRow × TicketAttachment) (hr' : r' ∈ new) :
      r'.1.id ∉ (packages ++ pending.map Prod.fst).map PackageRow.id ∧ r'.1.id ≠ r.1.id := by
    have hnot := (hrows r' hr').2
    have hlast : packages ++ (pending ++ [r]).map Prod.fst =
        (packages ++ pending.map Prod.fst) ++ [r.1] := by
      rw [List.map_append, ← List.append_assoc]
      rfl
    rw [hlast, List.map_append, List.mem_append, not_or] at hnot
    exact ⟨hnot.1, fun heq => hnot.2 (List.mem_singleton.mpr heq)⟩
  refine ⟨r :: new, by rw [List.append_assoc, List.singleton_append], rfl, fun r' hr' => ?_, ?_⟩
  · rcases List.mem_cons.mp hr' with rfl | hr'
    · exact ⟨hr, hfresh⟩
    · exact ⟨(hrows r' hr').1, (hids r' hr').1⟩
  · rw [List.map_cons, List.nodup_cons]
    refine ⟨fun hmem => ?_, hnodup⟩
    obtain ⟨r', hr', heq⟩ := List.mem_map.mp hmem
    exact (hids r' hr').2 heq

theorem rowsOf_attachmentRows {f : Upload} {data : List UInt8}
    (hname : IsName (attachmentName f).toList) :
    RowsOf storeDir ticketId (attachmentRows storeDir env userId ticketId k f data) where
  file := rfl
  path := rfl
  ticket := rfl
  name := hname
  size := rfl
  total := rfl

/-- What the loop does with an upload: it is written as the system answers, and if it is done and its
rows are taken, the loop goes on. -/
theorem attachFiles_cons {f : Upload} {data : List UInt8} (hread : f.read = .ok data) :
    (attachFiles storeDir env userId ticketId k (f :: files) pending).run s =
      (onDeskTree (writeBytes (env.os k) (attachmentDest ticketId (attachmentName f)) data) >>=
        fun _ => do
          let s ← get
          if Flushes env s.packages pending k then
            attachFiles storeDir env userId ticketId (k + 1) files
              (pending ++ [attachmentRows storeDir env userId ticketId k f data])
          else throw .refused).run s := by
  rw [attachFiles, hread]
  rfl

theorem dir_update {t : Tree} {p q : Path} {node : Node} (hq : t q = some .dir)
    (hp : t p ≠ some .dir) : Function.update t p (some node) q = some .dir := by
  rw [Function.update_of_ne, hq]
  rintro rfl
  exact hp hq

/-- The write of an upload is not done and the last one, or it is done and the loop may go on. -/
theorem writtenFiles_cases {packages : List PackageRow} {t : Tree} {f : Upload} {data : List UInt8}
    (hread : f.read = .ok data) :
    (∃ w, writtenFiles storeDir env userId ticketId packages t k (f :: files) pending = w ∧
        (∀ x ∈ w, x.1 = attachmentName f ∧
          t (attachmentDest ticketId (attachmentName f)) ≠ some .dir) ∧
        writeBytes (env.os k) (attachmentDest ticketId (attachmentName f)) data t =
          (false, putFiles ticketId t w)) ∨
      (t (attachmentDest ticketId (attachmentName f)) ≠ some .dir ∧
        writeBytes (env.os k) (attachmentDest ticketId (attachmentName f)) data t =
          (true, Function.update t (attachmentDest ticketId (attachmentName f))
            (some (.file data))) ∧
        writtenFiles storeDir env userId ticketId packages t k (f :: files) pending =
          (attachmentName f, data) ::
            if Flushes env packages pending k then
              writtenFiles storeDir env userId ticketId packages
                (Function.update t (attachmentDest ticketId (attachmentName f)) (some (.file data)))
                (k + 1) files (pending ++ [attachmentRows storeDir env userId ticketId k f data])
            else []) := by
  rw [writtenFiles, hread]
  by_cases hplace : t (attachmentDest ticketId (attachmentName f)) = some .dir ∨
      t (attachmentDest ticketId (attachmentName f)).dropLast ≠ some .dir
  · exact .inl ⟨_, if_pos hplace, fun x hx => absurd hx List.not_mem_nil, if_pos hplace⟩
  · have hdir := (not_or.mp hplace).1
    dsimp only
    rw [if_neg hplace]
    cases hanswer : (env.os k).writes (attachmentDest ticketId (attachmentName f)) with
    | refused =>
        exact .inl ⟨[], rfl, fun x hx => absurd hx List.not_mem_nil,
          writeBytes_refused hplace hanswer⟩
    | cut n =>
        refine .inl ⟨[(attachmentName f, data.take n)], rfl, fun x hx => ?_, ?_⟩
        · rw [List.mem_singleton.mp hx]
          exact ⟨rfl, hdir⟩
        · rw [putFiles, putFiles, writeBytes_cut hplace hanswer]
    | done => exact .inr ⟨hdir, writeBytes_done hplace hanswer, rfl⟩

/-- What the loop over the uploads leaves: the names are written in their order, and where it returns
they are the names and the bytes of the new rows. -/
theorem attachFiles_ends {w : List (String × List UInt8)}
    (htickets : s.tree ["tickets".toList] = some .dir)
    (hdir : s.tree (ticketDir ticketId) = some .dir)
    (hw : writtenFiles storeDir env userId ticketId s.packages s.tree k files pending = w) :
    Ends ((attachFiles storeDir env userId ticketId k files pending).run s)
      (fun rows s' => s' = { s with tree := putFiles ticketId s.tree w } ∧
        Attached storeDir ticketId s.packages pending rows w)
      (fun e s' => e ≠ .refKey ∧ s' = { s with tree := putFiles ticketId s.tree w }) := by
  induction files generalizing s k pending w with
  | nil =>
      obtain rfl := hw
      exact ⟨rfl, [], (List.append_nil _).symm, rfl, fun r hr => absurd hr List.not_mem_nil,
        List.nodup_nil⟩
  | cons f files ih =>
      cases hread : f.read with
      | error e =>
          rw [writtenFiles, hread] at hw
          obtain rfl := hw
          rw [attachFiles, hread]
          exact ⟨by simp, rfl⟩
      | ok data =>
          rw [attachFiles_cons hread]
          rcases writtenFiles_cases hread with ⟨w', hw', -, hwrite⟩ | ⟨hplace, hwrite, hw'⟩
          · obtain rfl := hw'.symm.trans hw
            rw [bind_of_error (onDeskTree_failed hwrite)]
            exact ⟨by simp, rfl⟩
          · have hname : IsName (attachmentName f).toList :=
              isName_of_writable htickets hdir hplace
            rw [hw'] at hw
            rw [bind_of_ok (onDeskTree_done hwrite), bind_of_ok (run_get _)]
            by_cases hflush : Flushes env s.packages pending k
            · rw [if_pos hflush] at hw ⊢
              have hkept {q : Path} (hq : s.tree q = some .dir) :
                  Function.update s.tree (attachmentDest ticketId (attachmentName f))
                    (some (.file data)) q = some .dir := dir_update hq hplace
              generalize ht : Function.update s.tree _ _ = t at hw hkept ⊢
              generalize hrest : writtenFiles storeDir env userId ticketId s.packages t _ _ _ = w'
                at hw
              rw [← hw, putFiles, ht]
              have hnext := @ih (k + 1) _ ⟨t, s.tickets, s.packages, s.attachments⟩ w'
                (hkept htickets) (hkept hdir) hrest
              refine hnext.mono (fun rows s' h => ⟨h.1, ?_⟩) fun e s' h => h
              exact h.2.cons (rowsOf_attachmentRows hname) hflush.1
            · rw [if_neg hflush] at hw ⊢
              rw [← hw]
              exact ⟨by simp, rfl⟩

end Loop

/-! ### What a call preserves -/

section Calls

variable {storeDir : String} {env : DeskEnv} {userId ticketId k : ℕ} {files : List Upload}
  {pending : List (PackageRow × TicketAttachment)} {s s' : TicketDesk} {t : Tree}

theorem isName_of_mem_writtenFiles {packages : List PackageRow} {x : String × List UInt8}
    (htickets : t ["tickets".toList] = some .dir) (hdir : t (ticketDir ticketId) = some .dir)
    (hx : x ∈ writtenFiles storeDir env userId ticketId packages t k files pending) :
    IsName x.1.toList := by
  induction files generalizing t k pending with
  | nil => exact absurd hx List.not_mem_nil
  | cons f files ih =>
      cases hread : f.read with
      | error e =>
          rw [writtenFiles, hread] at hx
          exact absurd hx List.not_mem_nil
      | ok data =>
          rcases writtenFiles_cases hread with ⟨w, hw, hlast, -⟩ | ⟨hplace, -, hw⟩
          · rw [hw] at hx
            obtain ⟨hx, hplace⟩ := hlast x hx
            rw [hx]
            exact isName_of_writable htickets hdir hplace
          · rw [hw] at hx
            rcases List.mem_cons.mp hx with rfl | hx
            · exact isName_of_writable htickets hdir hplace
            · split_ifs at hx
              · exact ih (dir_update htickets hplace) (dir_update hdir hplace) hx
              · exact absurd hx List.not_mem_nil

/-- What `add_attachments` leaves. The tree `t` is the one after the directory has been made. -/
theorem addAttachments_ends (storeDir : String) (env : DeskEnv) (userId ticketId : ℕ)
    (files : List Upload) (s : TicketDesk) :
    Ends ((addAttachments storeDir env userId ticketId files).run s)
      (fun _ s' => ∃ t rows, (∀ q node, s.tree q = some node → t q = some node) ∧
        (∀ x ∈ attachWrites storeDir env userId ticketId files s, IsName x.1.toList) ∧
        Attached storeDir ticketId s.packages [] rows
          (attachWrites storeDir env userId ticketId files s) ∧
        s' = { s with
          tree := putFiles ticketId t (attachWrites storeDir env userId ticketId files s)
          packages := s.packages ++ rows.map Prod.fst
          attachments := s.attachments ++ rows.map Prod.snd })
      (fun e s' => e ≠ .refKey ∧ ∃ t, (∀ q node, s.tree q = some node → t q = some node) ∧
        (∀ x ∈ attachWrites storeDir env userId ticketId files s, IsName x.1.toList) ∧
        s' = { s with
          tree := putFiles ticketId t (attachWrites storeDir env userId ticketId files s) }) := by
  rw [addAttachments]
  rw [bind_of_ok (run_get s)]
  cases hcheck : checkAttach env ticketId files s with
  | error e =>
      have hnone : attachWrites storeDir env userId ticketId files s = [] := by
        rw [attachWrites, hcheck]
      rw [hnone]
      exact ⟨by simp, s.tree, fun _ _ h => h, fun x hx => absurd hx List.not_mem_nil, rfl⟩
  | ok u =>
      refine ends_bind (Q := fun _ s' => s = s') rfl ?_
      rintro - _ rfl
      have hkeeps : ∀ q node, s.tree q = some node →
          (makeDirs env.dirOs [] (ticketDir ticketId) s.tree).2 q = some node :=
        fun q node hq => makeDirs_keeps hq
      cases hmade : makeDirs env.dirOs [] (ticketDir ticketId) s.tree with
      | mk made t =>
          rw [hmade] at hkeeps
          cases made with
          | false =>
              have hnone : attachWrites storeDir env userId ticketId files s = [] := by
                rw [attachWrites, hcheck, hmade]
                rfl
              rw [hnone, bind_of_error (onDeskTree_failed hmade)]
              exact ⟨by simp, t, hkeeps, fun x hx => absurd hx List.not_mem_nil, rfl⟩
          | true =>
              have hlead (way : Path) (hne : way ≠ []) (hway : way <+: ticketDir ticketId) :
                  t way = some .dir := by
                have h := makeDirs_made (show (makeDirs env.dirOs [] (ticketDir ticketId)
                  s.tree).1 = true by rw [hmade]) hne hway
                rwa [hmade, List.nil_append] at h
              have htickets : t ["tickets".toList] = some .dir :=
                hlead _ (List.cons_ne_nil _ _) ⟨_, rfl⟩
              have hdir : t (ticketDir ticketId) = some .dir :=
                hlead _ (List.cons_ne_nil _ _) (List.prefix_refl _)
              have hw : writtenFiles storeDir env userId ticketId s.packages t 0 files [] =
                  attachWrites storeDir env userId ticketId files s := by
                rw [attachWrites, hcheck, hmade]
                rfl
              have hnames : ∀ x ∈ attachWrites storeDir env userId ticketId files s,
                  IsName x.1.toList :=
                fun x hx => isName_of_mem_writtenFiles htickets hdir (hw ▸ hx)
              generalize attachWrites storeDir env userId ticketId files s = w at hw hnames ⊢
              rw [bind_of_ok (onDeskTree_done hmade)]
              have hloop := @attachFiles_ends storeDir env userId ticketId 0 files []
                ⟨t, s.tickets, s.packages, s.attachments⟩ w htickets hdir hw
              refine ends_bind (hloop.mono (fun _ _ h => h) fun e s' h =>
                ⟨h.1, t, hkeeps, hnames, h.2⟩) ?_
              rintro rows _ ⟨rfl, hrows⟩
              cases htakes : env.takes with
              | true => exact ⟨t, rows, hkeeps, hnames, hrows, rfl⟩
              | false => exact ⟨by simp, t, hkeeps, hnames, rfl⟩

end Calls

/-! ### Attachments -/

/-- An attachment with its package and its file, where it was written. -/
structure Placed (storeDir : String) (s : TicketDesk) (a : TicketAttachment) : Prop where
  name : IsName a.filename.toList
  package : ∃ pkg, Table.find PackageRow.id s.packages a.fileId = some pkg ∧
    pkg.storePath = attachmentPath storeDir a.ticketId a.filename ∧ pkg.totalSize = a.sent.length
  size : a.size = a.sent.length
  file : s.tree (attachmentDest a.ticketId a.filename) = some (.file a.sent)

section Attachments

variable {storeDir : String} {s s' : TicketDesk} {a : TicketAttachment} {ticketId : ℕ} {t : Tree}
  {w : List (String × List UInt8)} {rows : List (PackageRow × TicketAttachment)}

theorem Placed.holds (h : Placed storeDir s a) : s.Holds storeDir a := by
  obtain ⟨pkg, hfind, hpath, htotal⟩ := h.package
  exact ⟨pkg, hfind, by rw [hpath, fileAt_attachmentPath storeDir h.name, h.file], h.size, htotal⟩

/-- The file of an attachment stays if its name is written with its bytes only. -/
theorem putFiles_keeps (hname : IsName a.filename.toList)
    (hfile : t (attachmentDest a.ticketId a.filename) = some (.file a.sent))
    (hnames : ∀ x ∈ w, IsName x.1.toList)
    (hsame : ∀ x ∈ w, a.ticketId = ticketId → a.filename = x.1 → a.sent = x.2) :
    putFiles ticketId t w (attachmentDest a.ticketId a.filename) = some (.file a.sent) := by
  refine putFiles_of_same (fun x hx heq => ?_) (.inl hfile)
  obtain ⟨hticket, hfilename⟩ := attachmentDest_inj (hnames x hx) hname heq
  exact (hsame x hx hticket.symm hfilename.symm).symm

/-- An attachment stays placed if its file does, and packages are added after its own. -/
theorem Placed.keeps {packages : List PackageRow} (h : Placed storeDir s a)
    (hpackages : s'.packages = s.packages ++ packages)
    (hfile : s'.tree (attachmentDest a.ticketId a.filename) = some (.file a.sent)) :
    Placed storeDir s' a := by
  obtain ⟨pkg, hfind, hpkg⟩ := h.package
  exact ⟨h.name, ⟨pkg, by rw [hpackages, Table.find_append hfind], hpkg⟩, h.size, hfile⟩

theorem Attached.find_package (h : Attached storeDir ticketId s.packages [] rows w)
    {r : PackageRow × TicketAttachment} (hr : r ∈ rows) :
    Table.find PackageRow.id (s.packages ++ rows.map Prod.fst) r.2.fileId = some r.1 := by
  obtain ⟨_, rfl, -, hrows, hnodup⟩ := h.rows
  obtain ⟨hrow, hfresh⟩ := hrows r hr
  rw [List.map_nil, List.append_nil] at hfresh
  have hkeys : ((rows.map Prod.fst).map PackageRow.id).Nodup := by
    rwa [List.map_map]
  rw [← hrow.file, Table.find, List.find?_append]
  rw [show s.packages.find? _ = none from Table.find_eq_none_iff.mpr hfresh, Option.none_or]
  exact Table.find_of_mem hkeys (List.mem_map_of_mem hr)

theorem Attached.placed (h : Attached storeDir ticketId s.packages [] rows w)
    (hnames : ∀ x ∈ w, IsName x.1.toList)
    (hsame : ∀ x ∈ w, ∀ y ∈ w, y.1 = x.1 → y.2 = x.2)
    (hpackages : s'.packages = s.packages ++ rows.map Prod.fst)
    (htree : s'.tree = putFiles ticketId t w) : ∀ r ∈ rows, Placed storeDir s' r.2 := by
  intro r hr
  have hfind := h.find_package hr
  obtain ⟨_, rfl, rfl, hrows, -⟩ := h.rows
  have hrow := (hrows r hr).1
  have hx : (r.2.filename, r.2.sent) ∈ rows.map fun r => (r.2.filename, r.2.sent) :=
    List.mem_map.mpr ⟨r, hr, rfl⟩
  refine ⟨hrow.name, ⟨r.1, by rw [hpackages]; exact hfind, ?_, hrow.total⟩, hrow.size, ?_⟩
  · rw [hrow.path, hrow.ticket]
  · rw [htree, hrow.ticket]
    refine putFiles_of_same (fun y hy heq => ?_) (.inr ⟨_, hx, rfl⟩)
    exact hsame _ hx y hy (attachmentDest_inj (hnames y hy) hrow.name heq).2

end Attachments

/-! ### References -/

section References

variable {env : DeskEnv} {s s' : TicketDesk} {ticketId : ℕ} {t image : Ticket}
  {tickets : List Ticket} {q : TicketRequest}

/-- A transition leaves the references, but that `done_ticket` adds its task. -/
theorem row_refs (h : q.row t = .ok image) : image.refs = t.refs ∨
    ∃ g now task, q = .done g now (some task) ∧ g.check "ticket:done" = .ok () ∧
      t.status = .processing ∧ task ≠ 0 ∧ image.refs = t.refs ++ [("exec_task", task)] := by
  have happly {action : TicketAction} {moved : Ticket} (h : applyTransition t action = .ok moved) :
      moved.refs = t.refs ∧ t.status ∈ ticketTransitions.allowedFrom action := by
    rw [applyTransition] at h
    split_ifs at h with hallowed
    rw [← Except.ok.inj h]
    exact ⟨rfl, hallowed⟩
  have hsimple {g : Gate} {now : ℚ} {action : TicketAction} {perm : String}
      (h : simpleTransition g now action perm t = .ok image) : image.refs = t.refs := by
    obtain ⟨-, -, h⟩ := bind_eq_ok.mp h
    obtain ⟨moved, hmoved, h⟩ := bind_eq_ok.mp h
    rw [← (happly hmoved).1, ← Except.ok.inj h]
    split_ifs <;> rfl
  cases q with
  | assign g assigneeId =>
      obtain ⟨-, -, h⟩ := bind_eq_ok.mp h
      obtain ⟨moved, hmoved, h⟩ := bind_eq_ok.mp h
      left
      rw [← (happly hmoved).1, ← Except.ok.inj h]
  | accept g now => exact .inl (hsimple h)
  | process g now => exact .inl (hsimple h)
  | close g now => exact .inl (hsimple h)
  | reopen g now => exact .inl (hsimple h)
  | cancel g now => exact .inl (hsimple h)
  | done g now execTaskId =>
      obtain ⟨u, hcheck, h⟩ := bind_eq_ok.mp h
      obtain ⟨moved, hmoved, h⟩ := bind_eq_ok.mp h
      obtain ⟨hrefs, hallowed⟩ := happly hmoved
      cases execTaskId with
      | none =>
          left
          rw [← hrefs, ← Except.ok.inj h]
      | some task =>
          by_cases hzero : task = 0
          · left
            rw [← hrefs, ← Except.ok.inj h, if_pos hzero]
          · right
            refine ⟨g, now, task, rfl, hcheck, List.mem_singleton.mp hallowed, hzero, ?_⟩
            rw [← hrefs, ← Except.ok.inj h, if_neg hzero]

end References

/-! ### Histories -/

/-- The call repeats no reference, and writes no other bytes over an attachment: the hosts of a new
ticket are different, `done_ticket` names a task that the ticket does not refer to, and an upload
that is written has the name of an attachment of the ticket, or of another upload, only with the same
bytes. A call that is refused before is free. -/
def TicketCall.Harmless (storeDir : String) (s : TicketDesk) : TicketCall → Prop
  | .create env mayAssign data =>
      checkCreate env mayAssign data = .ok () → (data.hostIds.getD []).Nodup
  | .move _ ticketId q =>
      ∀ g now task, q = .done g now (some task) → ∀ t, s.ticket ticketId = some t →
        g.check "ticket:done" = .ok () → t.status = .processing → task ≠ 0 →
        ("exec_task", task) ∉ t.refs
  | .ref _ _ _ _ => True
  | .attach env userId ticketId files =>
      ∀ x ∈ attachWrites storeDir env userId ticketId files s,
        (∀ a ∈ s.attachments, a.ticketId = ticketId → a.filename = x.1 → a.sent = x.2) ∧
        ∀ y ∈ attachWrites storeDir env userId ticketId files s, y.1 = x.1 → y.2 = x.2

/-- The references of each ticket are different, and the attachments are placed. -/
structure TicketDesk.Valid (storeDir : String) (s : TicketDesk) : Prop where
  refs : ∀ t ∈ s.tickets, t.refs.Nodup
  placed : ∀ a ∈ s.attachments, Placed storeDir s a

section Histories

variable {storeDir : String} {s s' : TicketDesk} {env : DeskEnv} {ticketId : ℕ}

theorem TicketDesk.Valid.replaced (h : s.Valid storeDir) {image : Ticket}
    (hnodup : image.refs.Nodup) :
    TicketDesk.Valid storeDir { s with tickets := s.replaced image } := by
  refine ⟨fun t ht => ?_, fun a ha => ?_⟩
  · obtain ⟨old, hold, rfl⟩ := List.mem_map.mp ht
    split_ifs
    · exact hnodup
    · exact h.refs old hold
  · have := h.placed a ha
    exact ⟨this.name, this.package, this.size, this.file⟩

/-- A transaction leaves a valid desk, or raises for another reason than the key. -/
def EndsValid (storeDir : String) : Except TicketErr TicketDesk → Prop
  | .ok s' => s'.Valid storeDir
  | .error e => e ≠ .refKey

theorem endsValid_raising {α : Type} {x : Except PyErr α} {k : α → Except TicketErr TicketDesk}
    (h : ∀ a, x = .ok a → EndsValid storeDir (k a)) : EndsValid storeDir (raising x >>= k) := by
  cases x with
  | ok a => exact h a rfl
  | error e => exact TicketErr.noConfusion

theorem endsValid_commit {t : Ticket} {tickets : List Ticket} (hnodup : t.refs.Nodup)
    (hvalid : TicketDesk.Valid storeDir { s with tickets := tickets }) :
    EndsValid storeDir (commitTicket env t tickets s) := by
  rw [commitTicket, if_pos hnodup]
  split_ifs
  · exact TicketErr.noConfusion
  · exact hvalid

theorem transact_ends {x : TicketDesk → Except TicketErr TicketDesk} (hs : s.Valid storeDir)
    (h : EndsValid storeDir (x s)) :
    Ends ((transact x).run s) (fun _ s' => s'.Valid storeDir)
      (fun e s' => e ≠ .refKey ∧ s'.Valid storeDir) := by
  change Ends (match x s with | .ok s' => .ok () s' | .error e => .error e s) _ _
  cases hx : x s with
  | ok s' =>
      rw [hx] at h
      exact h
  | error e =>
      rw [hx] at h
      exact ⟨h, hs⟩

/-- `create_ticket`. -/
theorem createTicket_valid {mayAssign : Bool} {data : TicketCreate} (hs : s.Valid storeDir)
    (hok : (TicketCall.create env mayAssign data).Harmless storeDir s) :
    EndsValid storeDir (createTicket env mayAssign data s) := by
  refine endsValid_raising fun u hcheck => ?_
  have hnodup : (data.ticket env).refs.Nodup :=
    (hok hcheck).map fun a b h => (Prod.mk.inj h).2
  by_cases htaken : env.ticketId ∈ s.tickets.map Ticket.id
  · rw [if_pos htaken]
    exact TicketErr.noConfusion
  · rw [if_neg htaken]
    refine endsValid_commit hnodup ⟨fun t ht => ?_, fun a ha => ?_⟩
    · rcases List.mem_append.mp ht with ht | ht
      · exact hs.refs t ht
      · rw [List.mem_singleton.mp ht]
        exact hnodup
    · exact (hs.placed a ha).keeps (List.append_nil _).symm (hs.placed a ha).file

theorem moveTicket_valid {q : TicketRequest} (hs : s.Valid storeDir)
    (hok : (TicketCall.move env ticketId q).Harmless storeDir s) :
    EndsValid storeDir (moveTicket env ticketId q s) := by
  rw [moveTicket]
  split
  · exact endsValid_raising fun _ _ => TicketErr.noConfusion
  · next t hticket =>
      have hold : t.refs.Nodup := hs.refs t (Table.mem_of_find hticket)
      refine endsValid_raising fun image hrow => ?_
      have hnodup : image.refs.Nodup := by
        rcases row_refs hrow with hrefs | ⟨g, now, task, hq, hcheck, hstatus, hzero, hrefs⟩
        · rwa [hrefs]
        · rw [hrefs, ← List.concat_eq_append]
          exact List.Nodup.concat (hok g now task hq t hticket hcheck hstatus hzero) hold
      exact endsValid_commit hnodup (hs.replaced hnodup)

/-- The checks of `add_ref` find the ticket. -/
theorem checkRef_ticket {refType : String} {t : Ticket}
    (h : checkRef env ticketId refType s = .ok t) : s.ticket ticketId = some t := by
  obtain ⟨t', hask, h⟩ := bind_eq_ok.mp h
  obtain ⟨-, -, hask⟩ := bind_eq_ok.mp hask
  split_ifs at h with htype
  rw [← Except.ok.inj h]
  split at hask
  · exact absurd hask (throw_ne_ok _ _)
  · next t' hticket =>
      rw [hticket, Except.ok.inj hask]

/-- `add_ref`. -/
theorem addRef_valid {refType : String} {refId : ℤ} (hs : s.Valid storeDir) :
    EndsValid storeDir ((addRef env ticketId refType refId s).map Prod.fst) := by
  rw [addRef]
  cases hcheck : checkRef env ticketId refType s with
  | error e => exact TicketErr.noConfusion
  | ok t =>
      have hold : t.refs.Nodup := hs.refs t (Table.mem_of_find (checkRef_ticket hcheck))
      change EndsValid storeDir (Except.map Prod.fst (if _ then _ else _))
      split_ifs with hmem
      · exact hs
      · have hnodup : (t.referring (refType, refId)).refs.Nodup := by
          rw [Ticket.referring, ← List.concat_eq_append]
          exact List.Nodup.concat hmem hold
        have hcommit : EndsValid storeDir
            (commitTicket env (t.referring (refType, refId)) _ s) :=
          endsValid_commit hnodup (hs.replaced hnodup)
        change EndsValid storeDir
          (Except.map Prod.fst (commitTicket env _ _ s >>= fun s' => pure _))
        cases hresult : commitTicket env (t.referring (refType, refId)) _ s with
        | ok s' =>
            rw [hresult] at hcommit
            exact hcommit
        | error e =>
            rw [hresult] at hcommit
            exact hcommit

/-- `add_attachments`. -/
theorem addAttachments_valid {userId : ℕ} {files : List Upload} (hs : s.Valid storeDir)
    (hok : (TicketCall.attach env userId ticketId files).Harmless storeDir s) :
    Ends ((addAttachments storeDir env userId ticketId files).run s)
      (fun _ s' => s'.Valid storeDir) (fun e s' => e ≠ .refKey ∧ s'.Valid storeDir) := by
  have hfile {t : Tree} (hkeeps : ∀ q node, s.tree q = some node → t q = some node)
      (hnames : ∀ x ∈ attachWrites storeDir env userId ticketId files s, IsName x.1.toList)
      (a : TicketAttachment) (ha : a ∈ s.attachments) :
      putFiles ticketId t (attachWrites storeDir env userId ticketId files s)
        (attachmentDest a.ticketId a.filename) = some (.file a.sent) :=
    putFiles_keeps (hs.placed a ha).name (hkeeps _ _ (hs.placed a ha).file) hnames
      fun x hx hticket hname => (hok x hx).1 a ha hticket hname
  refine (addAttachments_ends storeDir env userId ticketId files s).mono ?_ ?_
  · rintro _ _ ⟨t, rows, hkeeps, hnames, hrows, rfl⟩
    refine ⟨hs.refs, fun a ha => ?_⟩
    rcases List.mem_append.mp ha with ha | ha
    · exact (hs.placed a ha).keeps rfl (hfile hkeeps hnames a ha)
    · obtain ⟨r, hr, rfl⟩ := List.mem_map.mp ha
      exact hrows.placed hnames (fun x hx => (hok x hx).2) rfl rfl r hr
  · rintro e _ ⟨hkey, t, hkeeps, hnames, rfl⟩
    exact ⟨hkey, hs.refs, fun a ha =>
      (hs.placed a ha).keeps (List.append_nil _).symm (hfile hkeeps hnames a ha)⟩

theorem call_ends {call : TicketCall} (hs : s.Valid storeDir) (hok : call.Harmless storeDir s) :
    Ends ((call.program storeDir).run s) (fun _ s' => s'.Valid storeDir)
      (fun e s' => e ≠ .refKey ∧ s'.Valid storeDir) := by
  cases call with
  | create env mayAssign data => exact transact_ends hs (createTicket_valid hs hok)
  | move env ticketId q => exact transact_ends hs (moveTicket_valid hs hok)
  | ref env ticketId refType refId => exact transact_ends hs (addRef_valid hs)
  | attach env userId ticketId files => exact addAttachments_valid hs hok

/-- The step of a history. -/
theorem step_keeps (call : TicketCall) (hs : s.Valid storeDir) (hok : call.Harmless storeDir s) :
    (s.apply storeDir call).Valid storeDir ∧ ¬ call.ViolatesKey storeDir s := by
  have h := call_ends hs hok
  rw [TicketDesk.apply]
  cases hrun : (call.program storeDir).run s with
  | ok u s' =>
      rw [hrun] at h
      refine ⟨h, ?_⟩
      rintro ⟨s'', herror⟩
      rw [hrun] at herror
      cases herror
  | error e s' =>
      rw [hrun] at h
      refine ⟨h.2, ?_⟩
      rintro ⟨s'', herror⟩
      rw [hrun] at herror
      cases herror
      exact h.1 rfl

theorem TicketDesk.Valid.clean (h : s.Valid storeDir) : s.Clean storeDir where
  refs := h.refs
  idempotent env ticketId refType refId t hcheck hmem := by
    rw [addRef, hcheck]
    exact if_pos hmem
  attachments a ha := (h.placed a ha).holds

end Histories

/-- Along every history of calls that repeat no reference and write no other bytes over an
attachment, the references of a ticket stay different, no call violates their key, a reference that
is added again changes nothing, and the attachments hold what was sent. -/
theorem desk_stays_clean (storeDir : String) (tree : Tree) (packages : List PackageRow)
    (calls : List TicketCall)
    (h : Meets (TicketDesk.apply storeDir) (fun s call => call.Harmless storeDir s)
      (.opened tree packages) calls) :
    (∀ pre, pre <+: calls →
      (run (TicketDesk.apply storeDir) (.opened tree packages) pre).Clean storeDir) ∧
    ∀ pre call post, calls = pre ++ call :: post →
      ¬ call.ViolatesKey storeDir (run (TicketDesk.apply storeDir) (.opened tree packages) pre) := by
  have hstart : (TicketDesk.opened tree packages).Valid storeDir :=
    ⟨fun t ht => absurd ht List.not_mem_nil, fun a ha => absurd ha List.not_mem_nil⟩
  have hvalid {pre post : List TicketCall} (heq : calls = pre ++ post) :
      (run (TicketDesk.apply storeDir) (.opened tree packages) pre).Valid storeDir := by
    rw [heq, meets_append] at h
    exact run_invariant_of_meets (P := fun s : TicketDesk => s.Valid storeDir)
      (fun s call hs hok => (step_keeps call hs hok).1) hstart h.1
  constructor
  · rintro pre ⟨post, heq⟩
    exact (hvalid heq.symm).clean
  · intro pre call post heq
    have hok := (meets_append _ _ _).mp (heq ▸ h)
    exact (step_keeps call (hvalid heq) hok.2.1).2

/-! ### Three histories -/

/-- A call that is permitted and that the system and the database answer. -/
def deskEnv (k : ℕ) : DeskEnv where
  gate := ⟨true, true⟩
  ticketId := k
  fileIds i := (k + i, k + i)
  dirOs := .willing
  os _ := .willing
  takesFile _ := true
  takes := true

/-- A new incident with hosts. -/
def incident (hostIds : List ℤ) : TicketCall :=
  .create (deskEnv 1) false ⟨"incident", "medium", none, some hostIds⟩

/-- A transition of the ticket. -/
def ticketMoved (q : TicketRequest) : TicketCall := .move (deskEnv 1) 1 q

/-- A file is attached to the ticket, as the `k`-th attachment. -/
def logAttached (k : ℕ) (byte : UInt8) : TicketCall :=
  .attach (deskEnv k) 7 1 [⟨some "log.txt", .ok [byte]⟩]

/-- The ticket on its way to `done`, with a task. -/
def untilDone : List TicketCall :=
  [incident [], ticketMoved (.assign ⟨true, true⟩ 7), ticketMoved (.accept ⟨true, true⟩ 0),
    ticketMoved (.process ⟨true, true⟩ 0), ticketMoved (.done ⟨true, true⟩ 0 (some 5))]

/-- A host that is named twice, a task that is named again after a reopening, and a file that is sent
again under its name. -/
theorem tickets_clash :
    (incident [5, 5]).ViolatesKey "/srv" (.opened (fun _ => none) []) ∧
      (ticketMoved (.done ⟨true, true⟩ 0 (some 5))).ViolatesKey "/srv"
        (run (TicketDesk.apply "/srv") (.opened (fun _ => none) [])
          (untilDone ++ [ticketMoved (.reopen ⟨true, true⟩ 0)])) ∧
      ∃ a ∈ (run (TicketDesk.apply "/srv") (.opened (fun _ => none) [])
          [incident [], logAttached 1 65, logAttached 2 66]).attachments,
        ¬ (run (TicketDesk.apply "/srv") (.opened (fun _ => none) [])
          [incident [], logAttached 1 65, logAttached 2 66]).Holds "/srv" a := by
  refine ⟨⟨_, rfl⟩, ⟨_, rfl⟩, ⟨1, 1, 1, "log.txt", 1, 7, [65]⟩, List.mem_cons_self, ?_⟩
  rintro ⟨pkg, hfind, hfile, -⟩
  obtain rfl : (⟨1, "log.txt", 1, 1, "/srv/tickets/1/log.txt", some 7⟩ : PackageRow) = pkg :=
    Option.some.inj hfind
  have hlast : fileAt "/srv" (run (TicketDesk.apply "/srv") (.opened (fun _ => none) [])
      [incident [], logAttached 1 65, logAttached 2 66]).tree "/srv/tickets/1/log.txt" =
        some (.file [66]) := rfl
  rw [hlast] at hfile
  exact absurd hfile (by decide)

theorem one_attachment_stays :
    (run (TicketDesk.apply "/srv") (.opened (fun _ => none) [])
      [incident [5, 6], logAttached 1 65]).Clean "/srv" := by
  refine (desk_stays_clean "/srv" (fun _ => none) [] [incident [5, 6], logAttached 1 65]
    ⟨?_, ?_, ?_⟩).1 _ (List.prefix_refl _)
  · intro _
    decide
  · have hwrites : attachWrites "/srv" (deskEnv 1) 7 1 [⟨some "log.txt", .ok [65]⟩]
        (TicketDesk.apply "/srv" (.opened (fun _ => none) []) (incident [5, 6])) =
          [("log.txt", [65])] := rfl
    intro x hx
    rw [hwrites] at hx ⊢
    refine ⟨fun a ha => absurd ha List.not_mem_nil, fun y hy _ => ?_⟩
    rw [List.mem_singleton.mp hx, List.mem_singleton.mp hy]
  · trivial

end LarkPlat
