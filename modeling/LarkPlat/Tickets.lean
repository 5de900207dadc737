import LarkPlat.PackageStore
import LarkPlat.StatusRequests
import LarkPlat.Table

/-!
# Tickets, their References and Attachments

`ticket_service.py`: a ticket refers to rows of other tables and has attachments. References are
added by `create_ticket`, `done_ticket` and `add_ref`, and the table takes each reference of a
ticket once. The files of the attachments of a ticket lie in one directory under the names that the
clients gave them; they are written before the rows are, and stay where the call raises.

An operation is one call, with the numbers that the sequences give, the answers of the operating
system, and whether the database takes the rows, but for the keys that are modelled.
-/

namespace LarkPlat

open Faults FileTree SlashPaths Transfers Machine

/-! ### Rows -/

/-- `ticket_attachment`, with the bytes that the client sent, which no column has. -/
structure TicketAttachment where
  id : ℕ
  ticketId : ℕ
  fileId : ℕ
  filename : String
  size : ℕ
  uploadedBy : ℕ
  sent : List UInt8
  deriving DecidableEq

/-- The files of the store, and the committed rows. The references are those of their tickets. -/
structure TicketDesk where
  tree : Tree
  tickets : List Ticket
  packages : List PackageRow
  attachments : List TicketAttachment

/-- What a call raises. `refKey` is a violation of the unique key of the references, and `refused`
is any other refusal of the database. -/
inductive TicketErr
  | raised (e : PyErr)
  | osError
  | refKey
  | refused
  deriving DecidableEq

/-- A program on the desk. What was written to the tree stays when it raises. -/
abbrev DeskM := EStateM TicketErr TicketDesk

/-- What a call meets. -/
structure DeskEnv where
  /-- The feature and the permission of the call. -/
  gate : Gate
  /-- The number of a new ticket. -/
  ticketId : ℕ
  /-- The numbers of new packages and attachments, by position. -/
  fileIds : ℕ → ℕ × ℕ
  /-- The answers to the first `mkdir`. -/
  dirOs : Os
  /-- The answers to the upload at a position. -/
  os : ℕ → Os
  /-- The database takes the rows of the upload at a position. -/
  takesFile : ℕ → Bool
  /-- The commit is taken. -/
  takes : Bool

/-! ### References -/

/-- `TICKET_CATEGORIES`. -/
def ticketCategories : List String := ["incident", "change", "request", "other"]

/-- `TICKET_PRIORITIES`. -/
def ticketPriorities : List String := ["low", "medium", "high", "urgent"]

/-- `TICKET_REF_TYPES`. -/
def ticketRefTypes : List String :=
  ["exec_task", "approval", "asset_host", "schedule", "kb_article", "script"]

/-- `TicketCreate`, but for the texts and the date that are only stored. -/
structure TicketCreate where
  category : String
  priority : String
  assigneeId : Option ℤ
  hostIds : Option (List ℤ)

/-- `data.assignee_id`, as a truth value. -/
def TicketCreate.assigned (data : TicketCreate) : Bool :=
  data.assigneeId.any fun i => decide (i ≠ 0)

/-- What `create_ticket` checks. -/
def checkCreate (env : DeskEnv) (mayAssign : Bool) (data : TicketCreate) : Except PyErr Unit := do
  env.gate.check "ticket:create"
  if data.category ∉ ticketCategories then
    throw (.validation ("invalid category: " ++ data.category))
  if data.priority ∉ ticketPriorities then
    throw (.validation ("invalid priority: " ++ data.priority))
  if data.assigned && !mayAssign then throw (.forbidden "permission denied: ticket:assign")

/-- The ticket that is created, with its references to hosts. -/
def TicketCreate.ticket (env : DeskEnv) (data : TicketCreate) : Ticket where
  id := env.ticketId
  status := if data.assigned then .assign else .create
  assigneeId := data.assigneeId
  resolvedAt := none
  closedAt := none
  version := 0
  refs := (data.hostIds.getD []).map fun hostId => ("asset_host", hostId)

/-- The ticket under a number. -/
def TicketDesk.ticket (s : TicketDesk) (ticketId : ℕ) : Option Ticket :=
  Table.find Ticket.id s.tickets ticketId

/-- The rows with one of them replaced. -/
def TicketDesk.replaced (s : TicketDesk) (t : Ticket) : List Ticket :=
  Table.modify Ticket.id s.tickets t.id fun _ => t

/-- A transaction that writes a ticket with its references, and leaves these rows. -/
def commitTicket (env : DeskEnv) (t : Ticket) (tickets : List Ticket) (s : TicketDesk) :
    Except TicketErr TicketDesk :=
  if env.takes = false then .error .refused
  else if t.refs.Nodup then .ok { s with tickets := tickets }
  else .error .refKey

/-- What raises in a check raises in the call. -/
def raising {α : Type} : Except PyErr α → Except TicketErr α
  | .ok a => .ok a
  | .error e => .error (.raised e)

/-- `create_ticket`. A number that is taken is refused. -/
def createTicket (env : DeskEnv) (mayAssign : Bool) (data : TicketCreate) (s : TicketDesk) :
    Except TicketErr TicketDesk := do
  raising (checkCreate env mayAssign data)
  if env.ticketId ∈ s.tickets.map Ticket.id then throw .refused
  commitTicket env (data.ticket env) (s.tickets ++ [data.ticket env]) s

/-- What a transition asks before it reads the ticket. -/
def TicketRequest.check : TicketRequest → Except PyErr Unit
  | assign g _ => g.check "ticket:assign"
  | accept g _ => g.check "ticket:accept"
  | process g _ => g.check "ticket:process"
  | close g _ => g.check "ticket:close"
  | reopen g _ => g.check "ticket:reopen"
  | cancel g _ => g.check "ticket:cancel"
  | done g _ _ => g.check "ticket:done"

/-- A transition, `done_ticket` among them: the row that it writes may have a new reference. -/
def moveTicket (env : DeskEnv) (ticketId : ℕ) (q : TicketRequest) (s : TicketDesk) :
    Except TicketErr TicketDesk :=
  match s.ticket ticketId with
  | none => do
      raising q.check
      throw (.raised (.notFound "ticket not found"))
  | some t => do
      let image ← raising (q.row t)
      commitTicket env image (s.replaced image) s

/-- The ticket of a call that needs a permission. -/
def askTicket (env : DeskEnv) (perm : String) (ticketId : ℕ) (s : TicketDesk) :
    Except PyErr Ticket := do
  env.gate.check perm
  match s.ticket ticketId with
  | none => throw (.notFound "ticket not found")
  | some t => return t

/-- The checks of `add_ref`. -/
def checkRef (env : DeskEnv) (ticketId : ℕ) (refType : String) (s : TicketDesk) :
    Except PyErr Ticket := do
  let t ← askTicket env "ticket:ref" ticketId s
  if refType ∈ ticketRefTypes then return t
  else throw (.validation ("invalid ref_type: " ++ refType))

/-- The ticket with one reference more. -/
def Ticket.referring (t : Ticket) (ref : String × ℤ) : Ticket :=
  { t with refs := t.refs ++ [ref] }

/-- `add_ref`, with whether the reference was created. -/
def addRef (env : DeskEnv) (ticketId : ℕ) (refType : String) (refId : ℤ) (s : TicketDesk) :
    Except TicketErr (TicketDesk × Bool) := do
  let t ← raising (checkRef env ticketId refType s)
  if (refType, refId) ∈ t.refs then return (s, false)
  else
    let image := t.referring (refType, refId)
    let s' ← commitTicket env image (s.replaced image) s
    return (s', true)

/-! ### Attachments -/

section Attachments

variable (storeDir : String) (env : DeskEnv) (userId ticketId : ℕ)

/-- The directory of the attachments of a ticket. -/
def ticketDir : Path := ["tickets".toList, (toString ticketId).toList]

/-- The name of an attachment: `split("/")[-1]` of the name that was sent. -/
def attachmentName (f : Upload) : String :=
  basename (orText (f.filename.getD "") "file")

/-- Where an attachment is written: `store_root / name`. -/
def attachmentDest (name : String) : Path :=
  walk (ticketDir ticketId) name.toList

/-- `str(dest)`. -/
def attachmentPath (name : String) : String :=
  storeDir ++ String.ofList ('/' :: joined (attachmentDest ticketId name))

/-- What is at a `store_path`. -/
def fileAt (tree : Tree) (storePath : String) : Option Node :=
  tree (resolve (storePath.toList.drop storeDir.toList.length))

/-- The package of an attachment. -/
def attachmentPackage (k : ℕ) (name : String) (data : List UInt8) : PackageRow :=
  ⟨(env.fileIds k).1, name, 1, data.length, attachmentPath storeDir ticketId name, some userId⟩

/-- The attachment. -/
def attachmentRow (k : ℕ) (name : String) (data : List UInt8) : TicketAttachment :=
  ⟨(env.fileIds k).2, ticketId, (env.fileIds k).1, name, data.length, userId, data⟩

/-- The rows of an upload. -/
def attachmentRows (k : ℕ) (f : Upload) (data : List UInt8) : PackageRow × TicketAttachment :=
  (attachmentPackage storeDir env userId ticketId k (attachmentName f) data,
    attachmentRow env userId ticketId k (attachmentName f) data)

/-- The flushes of the rows of an upload are taken. -/
def Flushes (packages : List PackageRow) (pending : List (PackageRow × TicketAttachment)) (k : ℕ) :
    Prop :=
  (env.fileIds k).1 ∉ (packages ++ pending.map Prod.fst).map PackageRow.id ∧ env.takesFile k = true

instance (packages : List PackageRow) (pending : List (PackageRow × TicketAttachment)) (k : ℕ) :
    Decidable (Flushes env packages pending k) :=
  inferInstanceAs (Decidable (_ ∧ _))

/-- A call of the operating system, which changes the tree also if it raises. -/
def onDeskTree (op : Tree → Bool × Tree) : DeskM Unit := fun s =>
  if (op s.tree).1 then .ok () { s with tree := (op s.tree).2 }
  else .error .osError { s with tree := (op s.tree).2 }

/-- A call that may raise. -/
def onDesk {α : Type} (x : Except PyErr α) : DeskM α := fun s =>
  match x with
  | .ok a => .ok a s
  | .error e => .error (.raised e) s

/-- The loop over the uploads, from a position on, with the rows that are pending. -/
def attachFiles : ℕ → List Upload → List (PackageRow × TicketAttachment) →
    DeskM (List (PackageRow × TicketAttachment))
  | _, [], pending => pure pending
  | k, f :: files, pending => do
      let data ← onDesk f.read
      onDeskTree (writeBytes (env.os k) (attachmentDest ticketId (attachmentName f)) data)
      let s ← get
      if Flushes env s.packages pending k then
        attachFiles (k + 1) files
          (pending ++ [attachmentRows storeDir env userId ticketId k f data])
      else throw .refused

/-- What `add_attachments` checks. -/
def checkAttach (files : List Upload) (s : TicketDesk) : Except PyErr Unit := do
  let _ ← askTicket env "ticket:attachment" ticketId s
  if files.isEmpty then throw (.badRequest "files[] required")

/-- `add_attachments`. -/
def addAttachments (files : List Upload) : DeskM Unit := do
  let s ← get
  onDesk (checkAttach env ticketId files s)
  onDeskTree (makeDirs env.dirOs [] (ticketDir ticketId))
  let pending ← attachFiles storeDir env userId ticketId 0 files []
  if env.takes then
    modify fun s => { s with
      packages := s.packages ++ pending.map Prod.fst
      attachments := s.attachments ++ pending.map Prod.snd }
  else throw .refused

end Attachments

/-! ### Histories -/

/-- The calls. -/
inductive TicketCall
  | create (env : DeskEnv) (mayAssign : Bool) (data : TicketCreate)
  | move (env : DeskEnv) (ticketId : ℕ) (q : TicketRequest)
  | ref (env : DeskEnv) (ticketId : ℕ) (refType : String) (refId : ℤ)
  | attach (env : DeskEnv) (userId ticketId : ℕ) (files : List Upload)

/-- A call that is one transaction leaves the desk as it was where it raises. -/
def transact (x : TicketDesk → Except TicketErr TicketDesk) : DeskM Unit := fun s =>
  match x s with
  | .ok s' => .ok () s'
  | .error e => .error e s

/-- A call. -/
def TicketCall.program (storeDir : String) : TicketCall → DeskM Unit
  | .create env mayAssign data => transact (createTicket env mayAssign data)
  | .move env ticketId q => transact (moveTicket env ticketId q)
  | .ref env ticketId refType refId => transact fun s =>
      (addRef env ticketId refType refId s).map Prod.fst
  | .attach env userId ticketId files => addAttachments storeDir env userId ticketId files

/-- The desk after a call. -/
def TicketDesk.apply (storeDir : String) (s : TicketDesk) (op : TicketCall) : TicketDesk :=
  finalState ((op.program storeDir).run s)

/-- A desk without tickets, over a store. -/
def TicketDesk.opened (tree : Tree) (packages : List PackageRow) : TicketDesk :=
  ⟨tree, [], packages, []⟩

end LarkPlat
