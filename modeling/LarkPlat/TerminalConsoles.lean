import LarkPlat.Faults
import LarkPlat.Machine
import LarkPlat.Terminals

/-!
# Terminals and Their Consoles

`terminal_ws.py` and `useTerminalConsole.ts`: a console of the browser opens a socket for a
terminal session, sends its size and what is typed, and shows the output that it receives. The
handler of the socket closes a session that lasts too long or is idle, records what is typed and
echoes it.

The handler awaits `_handle_input` and `_finalize_session`, which are plain functions: their effects
are done, and then the `TypeError` of the `await` ends the handler. What the console sends as input
is a dictionary, on which `_handle_input` raises before it records anything. The reply to the size
is a status other than `open`, and for such a status the console closes for good.

## Conventions

* The frames of a socket arrive in the order in which they were sent. Sockets, consoles, other
  clients and the calls of the API are interleaved in any way.
* A turn of the loop of a handler is one operation: it waits for nothing but the next frame.
* A frame is read at one time of the clock, which is also that of its effects.

## Main results

* `handled_turn`: what a handler does with a frame.
* `console_hears_nothing`: in every run the consoles show nothing, a console that is open has
  received greetings only, and nothing that was typed into one is recorded.
-/

namespace LarkPlat

open Machine

/-- The limits of `_rules`, in seconds. -/
structure TerminalLimits where
  idleTimeoutSec : ℤ
  durationLimitSec : ℤ
  deriving DecidableEq

/-- The frames that a handler sends. -/
inductive TerminalFrame
  | status (status : String) (reason : Option String)
  | output (data : Json)
  | pong
  deriving DecidableEq

/-- A socket for a terminal session. Of its handler: what it has read when it connected, what it has
sent and how it has ended. Of its client: the console, if it is one, the frames that are on their
way, how many replies have arrived, whether it has left, and whether it hears of the end. -/
structure TerminalSocket where
  sessionId : ℕ
  started : ℚ
  lastActive : ℚ
  limits : TerminalLimits
  accepted : Bool
  sent : List TerminalFrame
  closeCode : Option ℕ
  ended : Bool
  console : Option ℕ
  inbox : List (Option Json)
  opened : Bool
  left : Bool
  hears : Bool
  arrived : ℕ

/-- A text that was recorded, with the number of the socket it was typed into. -/
structure TypedText where
  socket : ℕ
  sessionId : ℕ
  text : String
  deriving DecidableEq

/-- The sessions, what was recorded, and the sockets in the order in which they were opened. -/
structure TerminalHub where
  desk : Desk
  recorded : List TypedText
  sockets : List TerminalSocket

namespace TerminalHub

variable (hub : TerminalHub)

/-- A socket changes. -/
def setSocket (i : ℕ) (f : TerminalSocket → TerminalSocket) : TerminalHub :=
  { hub with sockets := hub.sockets.modify i f }

/-- `_send`. -/
def send (i : ℕ) (frame : TerminalFrame) : TerminalHub :=
  hub.setSocket i fun s => { s with sent := s.sent ++ [frame] }

/-- `websocket.close`. -/
def close (i code : ℕ) : TerminalHub :=
  hub.setSocket i fun s => { s with closeCode := some code }

/-- The handler has ended. -/
def finish (i : ℕ) : TerminalHub := hub.setSocket i fun s => { s with ended := true }

/-! ### The handler -/

/-- A program of the handler of a socket. What is done before an exception stays done. -/
abbrev Handler : Type → Type := EStateM PyErr TerminalHub

/-- `await` on what a plain function has returned. -/
def awaitNone : Handler Unit := throw .typeError

/-- `_finalize_session`. -/
def finalizeSession (sessionId : ℕ) (reason : String) (now : ℚ) : Handler Unit :=
  modify fun hub => { hub with desk := hub.desk.limitSession now reason sessionId }

/-- The session may be recorded. -/
def isOpen (sessionId : ℕ) : Bool :=
  (hub.desk.session? sessionId).any fun s => decide (s.status = .open)

/-- `_handle_input` for the socket `i`. With `stores`, `record_output` and its commit return. -/
def handleInput (i sessionId : ℕ) (data : Json) (stores : Bool) : Handler Unit :=
  if !data.truthy then pure ()
  else
    match data with
    | .str text =>
        if Json.strip text.toList = [] then pure ()
        else modify fun hub =>
          if hub.isOpen sessionId ∧ stores then
            { hub with recorded := hub.recorded ++ [⟨i, sessionId, text ++ "\n"⟩] }
          else hub
    | _ => throw .attributeError

/-- A limit is reached: the loop ends. -/
def stopFor (i sessionId : ℕ) (reason : String) (now : ℚ) : Handler Bool := do
  finalizeSession sessionId reason now
  awaitNone
  modify fun hub => hub.send i (.status "closed" (some reason))
  modify fun hub => hub.close i 4408
  pure false

/-- A frame within the limits. -/
def answer (i sessionId : ℕ) (msg : Json) (stores : Bool) : Handler Bool :=
  match msg with
  | .obj fields =>
      if Json.field fields "type" = .str "input" then do
        let data := (fields.lookup "data").getD (.str "")
        handleInput i sessionId data stores
        awaitNone
        modify fun hub => hub.send i (.output data)
        pure true
      else if Json.field fields "type" = .str "resize" then do
        modify fun hub => hub.send i (.status "resized" none)
        pure true
      else if Json.field fields "type" = .str "ping" then do
        modify fun hub => hub.send i .pong
        pure true
      else pure true
  | _ => throw .attributeError

/-- A turn of the loop of `ws_terminal`: whether it goes on. -/
def turn (i : ℕ) (s : TerminalSocket) (raw : Option Json) (now : ℚ) (stores : Bool) :
    Handler Bool :=
  if s.limits.durationLimitSec ≠ 0 ∧ (s.limits.durationLimitSec : ℚ) ≤ now - s.started then
    stopFor i s.sessionId "duration_limit" now
  else if (s.limits.idleTimeoutSec : ℚ) < now - s.lastActive then
    stopFor i s.sessionId "idle_timeout" now
  else do
    modify fun hub => hub.setSocket i fun s => { s with lastActive := now }
    match raw with
    | none => pure true
    | some msg => answer i s.sessionId msg stores

/-- A handler that does not go on has ended, be it by an exception. -/
def afterTurn (i : ℕ) : EStateM.Result PyErr TerminalHub Bool → TerminalHub
  | .ok true hub => hub
  | .ok false hub => hub.finish i
  | .error _ hub => hub.finish i

/-- The handler of a socket takes the next frame, or sees that its client has left. -/
def handle (i : ℕ) (now : ℚ) (stores : Bool) : TerminalHub :=
  match hub.sockets[i]? with
  | none => hub
  | some s =>
      if s.ended then hub
      else
        match s.inbox with
        | raw :: inbox =>
            afterTurn i ((turn i s raw now stores).run
              (hub.setSocket i fun s => { s with inbox := inbox }))
        | [] => if s.left then hub.finish i else hub

/-- A connection that is refused. -/
def refuse (sessionId code : ℕ) (console : Option ℕ) : TerminalHub :=
  { hub with sockets := hub.sockets ++
      [⟨sessionId, 0, 0, ⟨0, 0⟩, false, [], some code, true, console, [], false, false, true, 0⟩] }

/-- `ws_terminal` up to its loop. `verified` is what `_verify_ws_token` answers, and `_rules` raises
if there are no limits. -/
def connect (sessionId : ℕ) (verified : Bool) (limits : Option TerminalLimits) (now : ℚ)
    (console : Option ℕ) : TerminalHub :=
  if !verified then hub.refuse sessionId 4401 console
  else
    match hub.desk.session? sessionId with
    | none => hub.refuse sessionId 4404 console
    | some session =>
        if session.status ≠ .open then hub.refuse sessionId 4403 console
        else
          let started := session.startedAt.getD now
          { hub with sockets := hub.sockets ++
              [⟨sessionId, started, started, limits.getD ⟨0, 0⟩, true, [.status "open" none], none,
                limits.isNone, console, [], false, false, true, 0⟩] }

end TerminalHub

/-! ### The console -/

/-- `useTerminalConsole`. `heard` are the frames that were received since the last `start`. -/
structure TerminalConsole where
  sessionId : ℕ
  cols : ℕ
  rows : ℕ
  buffer : String
  lastOffset : ℚ
  closed : Bool
  connecting : Bool
  socket : Option ℕ
  heard : List TerminalFrame

namespace TerminalConsole

variable (c : TerminalConsole)

/-- A number of JavaScript. -/
def number? : Json → Option ℚ
  | .int n => some n
  | .float q => some q
  | _ => none

/-- `appendOutput`. -/
def appendOutput (data : String) (offset : ℚ) : TerminalConsole :=
  if c.lastOffset < offset then { c with buffer := c.buffer ++ data, lastOffset := offset } else c

/-- `onmessage`. -/
def onMessage (frame : TerminalFrame) : TerminalConsole :=
  let c := { c with heard := c.heard ++ [frame] }
  match frame with
  | .output (.obj fields) =>
      match Json.field fields "data", number? (Json.field fields "offset") with
      | .str data, some offset => c.appendOutput data offset
      | _, _ => c
  | .output _ => c
  | .status status _ => if status = "open" then c else { c with closed := true }
  | .pong => c

/-- The frame of `resize`. -/
def resizeFrame : Json :=
  .obj [("type", .str "resize"), ("data", .obj [("cols", .int c.cols), ("rows", .int c.rows)])]

/-- The frame of `sendInput`. -/
def inputFrame (data : String) : Json :=
  .obj [("type", .str "input"), ("data", .obj [("data", .str data)])]

/-- A console before `start`. -/
def idle (sessionId cols rows : ℕ) : TerminalConsole :=
  ⟨sessionId, cols, rows, "", 0, false, false, none, []⟩

end TerminalConsole

/-! ### The network -/

/-- The hub and the consoles. -/
structure TerminalNet where
  hub : TerminalHub
  consoles : ℕ → TerminalConsole

/-- What happens: a handler takes a frame, or another call leaves the sessions as `desk`; another
client connects, sends or leaves; a console is started or stopped, is resized or typed into, goes to
connect, opens a socket or gets no token, or hears that a socket is open, that a frame has arrived
or that the socket is closed. -/
inductive TerminalOp
  | handle (i : ℕ) (now : ℚ) (stores : Bool)
  | others (desk : Desk)
  | clientConnects (sessionId : ℕ) (verified : Bool) (limits : Option TerminalLimits) (now : ℚ)
  | clientSends (i : ℕ) (raw : Option Json)
  | clientLeaves (i : ℕ)
  | start (k : ℕ)
  | stop (k : ℕ)
  | resize (k cols rows : ℕ)
  | input (k : ℕ) (data : String)
  | goesToConnect (k : ℕ)
  | opensSocket (k : ℕ) (verified : Bool) (limits : Option TerminalLimits) (now : ℚ)
  | getsNoToken (k : ℕ)
  | onOpen (i : ℕ)
  | onMessage (i : ℕ)
  | onClose (i code : ℕ)

namespace TerminalNet

variable (net : TerminalNet)

/-- A console changes. -/
def setConsole (k : ℕ) (c : TerminalConsole) : TerminalNet :=
  { net with consoles := fun k' => if k' = k then c else net.consoles k' }

/-- A socket changes. -/
def setSocket (i : ℕ) (f : TerminalSocket → TerminalSocket) : TerminalNet :=
  { net with hub := net.hub.setSocket i f }

/-- `ws.send`, if the socket is open at its client. -/
def sendFrom (i : ℕ) (raw : Option Json) : TerminalNet :=
  net.setSocket i fun s => if s.opened && !s.left then { s with inbox := s.inbox ++ [raw] } else s

/-- `socket.send` of a console. -/
def sendBy (k : ℕ) (raw : Json) : TerminalNet :=
  match (net.consoles k).socket with
  | none => net
  | some i => net.sendFrom i (some raw)

/-- The client closes the socket. -/
def leave (i : ℕ) : TerminalNet := net.setSocket i fun s => { s with left := true }

/-- The guard of `connect`. -/
def goToConnect (k : ℕ) : TerminalNet :=
  let c := net.consoles k
  if c.closed || c.connecting then net else net.setConsole k { c with connecting := true }

/-- The socket, if it is of another client than a console. -/
def otherClient (i : ℕ) : Bool := (net.hub.sockets[i]?).any fun s => s.console.isNone

/-- `ws.onopen`. -/
def onOpen (i : ℕ) (s : TerminalSocket) : TerminalNet :=
  let opened := net.setSocket i fun s => { s with opened := true }
  match s.console with
  | none => opened
  | some k =>
      let c := net.consoles k
      (opened.setConsole k { c with connecting := false }).sendFrom i (some c.resizeFrame)

/-- A frame arrives at a socket: `ws.onmessage`. -/
def onMessage (i : ℕ) (s : TerminalSocket) (frame : TerminalFrame) : TerminalNet :=
  let arrived := net.setSocket i fun s => { s with arrived := s.arrived + 1 }
  match s.console with
  | none => arrived
  | some k =>
      let c := (net.consoles k).onMessage frame
      let heard := arrived.setConsole k c
      match frame with
      | .status status _ => if status = "open" then heard else heard.leave i
      | _ => heard

/-- `ws.onclose`. -/
def onClose (i code : ℕ) (s : TerminalSocket) : TerminalNet :=
  let closed := net.setSocket i fun s => { s with left := true, hears := false }
  match s.console with
  | none => closed
  | some k =>
      let c := net.consoles k
      closed.setConsole k
        { c with socket := none, connecting := false, closed := c.closed || decide (code = 4404) }

/-- One operation. -/
def apply : TerminalOp → TerminalNet
  | .handle i now stores => { net with hub := net.hub.handle i now stores }
  | .others desk => { net with hub := { net.hub with desk := desk } }
  | .clientConnects sessionId verified limits now =>
      { net with hub := net.hub.connect sessionId verified limits now none }
  | .clientSends i raw => if net.otherClient i then net.sendFrom i raw else net
  | .clientLeaves i => if net.otherClient i then net.leave i else net
  | .start k =>
      (net.setConsole k { net.consoles k with
        closed := false, lastOffset := 0, buffer := "", heard := [] }).goToConnect k
  | .stop k =>
      let c := net.consoles k
      let stopped := net.setConsole k { c with closed := true, socket := none }
      match c.socket with
      | none => stopped
      | some i => stopped.setSocket i fun s => { s with left := true, hears := false }
  | .resize k cols rows =>
      let c := { net.consoles k with cols := cols, rows := rows }
      (net.setConsole k c).sendBy k c.resizeFrame
  | .input k data => net.sendBy k (TerminalConsole.inputFrame data)
  | .goesToConnect k => net.goToConnect k
  | .opensSocket k verified limits now =>
      let c := net.consoles k
      if c.connecting then
        { net with
          hub := net.hub.connect c.sessionId verified limits now (some k) }.setConsole k
            { c with socket := some net.hub.sockets.length }
      else net
  | .getsNoToken k => net.setConsole k { net.consoles k with connecting := false }
  | .onOpen i =>
      match net.hub.sockets[i]? with
      | some s => if s.accepted && !s.opened && !s.left then net.onOpen i s else net
      | none => net
  | .onMessage i =>
      match net.hub.sockets[i]? with
      | some s =>
          if s.opened && !s.left then
            match s.sent[s.arrived]? with
            | some frame => net.onMessage i s frame
            | none => net
          else net
      | none => net
  | .onClose i code =>
      match net.hub.sockets[i]? with
      | some s => if s.hears then net.onClose i code s else net
      | none => net

/-- No socket yet, and the consoles as they are created. -/
def fresh (desk : Desk) (sessionId cols rows : ℕ → ℕ) : TerminalNet :=
  ⟨⟨desk, [], []⟩, fun k => .idle (sessionId k) (cols k) (rows k)⟩

end TerminalNet

/-! ### What a handler does with a frame -/

namespace TerminalHub

variable {hub : TerminalHub} {i : ℕ} {s : TerminalSocket} {raw : Option Json} {now : ℚ}
  {stores : Bool}

/-- The replies to a frame. -/
def Reply (raw : Option Json) (frame : TerminalFrame) : Prop :=
  frame = .status "resized" none ∨
    frame = .pong ∧
      ∃ fields, raw = some (.obj fields) ∧ Json.field fields "type" = .str "ping"

/-- What a handler leaves when it has taken a frame: it goes on, and may have replied; or it has
ended, and may have recorded a text. -/
inductive Handled (hub : TerminalHub) (i sessionId : ℕ) (raw : Option Json) (hub' : TerminalHub) :
    Prop
  | goesOn (now : ℚ) (frames : List TerminalFrame) (hframes : ∀ f ∈ frames, Reply raw f)
      (hsockets : hub'.sockets = hub.sockets.modify i fun s =>
        { s with lastActive := now, sent := s.sent ++ frames })
      (hrecorded : hub'.recorded = hub.recorded)
  | ends (last : TerminalSocket → ℚ)
      (hsockets : hub'.sockets = hub.sockets.modify i fun s =>
        { s with lastActive := last s, ended := true })
      (hrecorded : hub'.recorded = hub.recorded)
  | records (now : ℚ) (text : String) (fields : List (String × Json))
      (hraw : raw = some (.obj fields)) (htext : fields.lookup "data" = some (.str text))
      (hsockets : hub'.sockets = hub.sockets.modify i fun s =>
        { s with lastActive := now, ended := true })
      (hrecorded : hub'.recorded = hub.recorded ++ [⟨i, sessionId, text ++ "\n"⟩])

theorem handled_stopFor (raw : Option Json) (reason : String) :
    Handled hub i s.sessionId raw (afterTurn i ((stopFor i s.sessionId reason now).run hub)) :=
  .ends TerminalSocket.lastActive rfl rfl

theorem modify_twice (hub : TerminalHub) (i : ℕ) (f g : TerminalSocket → TerminalSocket) :
    ((hub.setSocket i f).setSocket i g).sockets = hub.sockets.modify i (g ∘ f) :=
  List.modify_modify_eq f g i hub.sockets

/-- A plain function that is awaited: its effects stay, and the handler ends. -/
theorem afterTurn_awaited (x : Handler Unit) (f : TerminalHub → TerminalHub) :
    afterTurn i ((do x; awaitNone; modify f; pure true : Handler Bool).run hub) =
      (Faults.finalState (x.run hub)).finish i := by
  change afterTurn i (EStateM.bind x _ hub) = (Faults.finalState (x hub)).finish i
  unfold EStateM.bind
  cases x hub <;> rfl

/-- **`_handle_input`** records a text or does nothing, whether it returns or raises. -/
theorem handleInput_cases (hub : TerminalHub) (sessionId : ℕ) (data : Json) :
    Faults.finalState ((handleInput i sessionId data stores).run hub) = hub ∨
      ∃ text, data = .str text ∧
        Faults.finalState ((handleInput i sessionId data stores).run hub) =
          { hub with recorded := hub.recorded ++ [⟨i, sessionId, text ++ "\n"⟩] } := by
  unfold handleInput
  split
  · exact .inl rfl
  · cases data with
    | str text =>
        dsimp only
        split
        · exact .inl rfl
        · change (if hub.isOpen sessionId ∧ stores then _ else hub) = hub ∨ ∃ _, _ ∧
            (if hub.isOpen sessionId ∧ stores then _ else hub) = _
          split
          · exact .inr ⟨text, rfl, rfl⟩
          · exact .inl rfl
    | _ => exact .inl rfl

theorem handled_input {fields : List (String × Json)} (hraw : raw = some (.obj fields)) :
    Handled hub i s.sessionId raw ((Faults.finalState ((handleInput i s.sessionId
      ((fields.lookup "data").getD (.str "")) stores).run
        (hub.setSocket i fun s => { s with lastActive := now }))).finish i) := by
  rcases handleInput_cases (hub.setSocket i fun s => { s with lastActive := now }) s.sessionId
    ((fields.lookup "data").getD (.str "")) with h | ⟨text, htext, h⟩
  · rw [h]
    exact .ends (fun _ => now) (modify_twice hub i _ _) rfl
  · cases hlookup : fields.lookup "data" with
    | none =>
        rw [hlookup] at htext h
        obtain rfl := Json.str.inj htext
        exact .ends (fun _ => now) (modify_twice hub i _ _) rfl
    | some data =>
        rw [hlookup] at htext h
        rw [h]
        obtain rfl : data = .str text := htext
        exact .records now text fields hraw hlookup (modify_twice hub i _ _) rfl

theorem handled_silently :
    Handled hub i s.sessionId raw (hub.setSocket i fun s => { s with lastActive := now }) := by
  refine .goesOn now [] (fun f hf => absurd hf List.not_mem_nil) ?_ rfl
  simp only [List.append_nil]
  rfl

/-- **A frame is handled.** -/
theorem handled_turn :
    Handled hub i s.sessionId raw (afterTurn i ((turn i s raw now stores).run hub)) := by
  unfold turn
  split_ifs
  · exact handled_stopFor raw _
  · exact handled_stopFor raw _
  · cases raw with
    | none => exact handled_silently
    | some msg =>
        change Handled hub i s.sessionId (some msg)
          (afterTurn i ((answer i s.sessionId msg stores).run
            (hub.setSocket i fun s => { s with lastActive := now })))
        cases msg with
        | obj fields =>
            rw [answer]
            split_ifs with hinput hresize hping
            · rw [afterTurn_awaited]
              exact handled_input rfl
            · refine .goesOn now [.status "resized" none] ?_ (modify_twice hub i _ _) rfl
              intro f hf
              exact .inl (List.mem_singleton.mp hf)
            · refine .goesOn now [.pong] ?_ (modify_twice hub i _ _) rfl
              intro f hf
              exact .inr ⟨List.mem_singleton.mp hf, fields, rfl, hping⟩
            · exact handled_silently
        | _ => exact .ends (fun _ => now) (modify_twice hub i _ _) rfl

/-! ### Handlers stay quiet -/

/-- The frames that a console sends. -/
def OfConsole (raw : Option Json) : Prop :=
  (∃ c : TerminalConsole, raw = some c.resizeFrame) ∨
    ∃ data, raw = some (TerminalConsole.inputFrame data)

/-- A socket on which no output was sent, which was not closed by its handler if it was accepted,
and on which a console has sent what consoles send. -/
structure QuietSocket (s : TerminalSocket) : Prop where
  sent : ∀ f ∈ s.sent,
    f = .status "open" none ∨ f = .status "resized" none ∨ f = .pong ∧ s.console = none
  codes : s.accepted = true → s.closeCode = none
  typed : s.console ≠ none → ∀ raw ∈ s.inbox, OfConsole raw

/-- All sockets are quiet, and what was recorded ended a socket that is not of a console. -/
structure Quiet (hub : TerminalHub) : Prop where
  sockets : ∀ s ∈ hub.sockets, QuietSocket s
  once : (hub.recorded.map TypedText.socket).Nodup
  done : ∀ r ∈ hub.recorded, ∃ s,
    hub.sockets[r.socket]? = some s ∧ s.ended = true ∧ s.console = none

theorem lookup_data_of_console {fields : List (String × Json)}
    (h : OfConsole (some (.obj fields))) : ∃ inner, fields.lookup "data" = some (.obj inner) := by
  rcases h with ⟨c, h⟩ | ⟨data, h⟩
  · obtain rfl := Json.obj.inj (Option.some.inj h)
    exact ⟨_, rfl⟩
  · obtain rfl := Json.obj.inj (Option.some.inj h)
    exact ⟨_, rfl⟩

theorem not_ping_of_console {fields : List (String × Json)} (h : OfConsole (some (.obj fields))) :
    Json.field fields "type" ≠ .str "ping" := by
  rcases h with ⟨c, h⟩ | ⟨data, h⟩
  · obtain rfl := Json.obj.inj (Option.some.inj h)
    exact fun hping => absurd (Json.str.inj hping) (by decide)
  · obtain rfl := Json.obj.inj (Option.some.inj h)
    exact fun hping => absurd (Json.str.inj hping) (by decide)

/-- What changes on a socket keeps it quiet, its client and its end. -/
structure KeepsSocket (f : TerminalSocket → TerminalSocket) (s : TerminalSocket) : Prop where
  quiet : QuietSocket s → QuietSocket (f s)
  ended : s.ended = true → (f s).ended = true
  console : (f s).console = s.console

theorem Quiet.modify (h : hub.Quiet) {f : TerminalSocket → TerminalSocket}
    (hf : ∀ s, hub.sockets[i]? = some s → KeepsSocket f s) {hub' : TerminalHub}
    (hsockets : hub'.sockets = hub.sockets.modify i f) (hrecorded : hub'.recorded = hub.recorded) :
    hub'.Quiet where
  sockets s hs := by
    obtain ⟨j, hj⟩ := List.mem_iff_getElem?.mp hs
    rw [hsockets, List.getElem?_modify] at hj
    obtain ⟨s₀, hs₀, rfl⟩ := Option.map_eq_some_iff.mp hj
    have hquiet := h.sockets s₀ (List.mem_of_getElem? hs₀)
    split_ifs with hij
    · subst hij
      exact (hf s₀ hs₀).quiet hquiet
    · exact hquiet
  once := hrecorded ▸ h.once
  done r hr := by
    obtain ⟨s₀, hs₀, hended, hconsole⟩ := h.done r (hrecorded ▸ hr)
    rw [hsockets, List.getElem?_modify, hs₀]
    refine ⟨_, rfl, ?_⟩
    split_ifs with hij
    · subst hij
      exact ⟨(hf s₀ hs₀).ended hended, (hf s₀ hs₀).console.trans hconsole⟩
    · exact ⟨hended, hconsole⟩

theorem Quiet.concat (h : hub.Quiet) {s : TerminalSocket} (hs : QuietSocket s) :
    Quiet { hub with sockets := hub.sockets ++ [s] } where
  sockets s' hs' := by
    rcases List.mem_append.mp hs' with hs' | hs'
    · exact h.sockets s' hs'
    · rw [List.mem_singleton.mp hs']
      exact hs
  once := h.once
  done r hr := by
    obtain ⟨s₀, hs₀, hrest⟩ := h.done r hr
    obtain ⟨hlt, -⟩ := List.getElem?_eq_some_iff.mp hs₀
    exact ⟨s₀, (List.getElem?_append_left hlt).trans hs₀, hrest⟩

theorem Quiet.connect (h : hub.Quiet) (sessionId : ℕ) (verified : Bool)
    (limits : Option TerminalLimits) (console : Option ℕ) :
    (hub.connect sessionId verified limits now console).Quiet := by
  have hrefuse : ∀ code, (hub.refuse sessionId code console).Quiet := fun code =>
    h.concat ⟨fun f hf => absurd hf List.not_mem_nil, fun h => Bool.noConfusion h,
      fun _ raw hraw => absurd hraw List.not_mem_nil⟩
  unfold TerminalHub.connect
  split
  · exact hrefuse _
  · split
    · exact hrefuse _
    · split
      · exact hrefuse _
      · exact h.concat ⟨fun f hf => .inl (List.mem_singleton.mp hf), fun _ => rfl,
          fun _ raw hraw => absurd hraw List.not_mem_nil⟩

/-- **A handled frame** keeps the sockets quiet. -/
theorem Quiet.handled (h : hub.Quiet) {hub' : TerminalHub} (hs : hub.sockets[i]? = some s)
    (hended : s.ended = false) (hraw : s.console ≠ none → OfConsole raw) {sessionId : ℕ}
    (hhandled : Handled hub i sessionId raw hub') : hub'.Quiet := by
  cases hhandled with
  | goesOn now frames hframes hsockets hrecorded =>
      refine h.modify ?_ hsockets hrecorded
      intro s' hs'
      obtain rfl := Option.some.inj (hs.symm.trans hs')
      refine ⟨fun hquiet => ⟨fun f hf => ?_, hquiet.codes, hquiet.typed⟩, id, rfl⟩
      rcases List.mem_append.mp hf with hf | hf
      · exact hquiet.sent f hf
      · rcases hframes f hf with hresized | ⟨hpong, fields, rfl, htype⟩
        · exact .inr (.inl hresized)
        · refine .inr (.inr ⟨hpong, ?_⟩)
          by_contra hconsole
          exact not_ping_of_console (hraw hconsole) htype
  | ends last hsockets hrecorded =>
      refine h.modify ?_ hsockets hrecorded
      intro s' hs'
      exact ⟨fun hquiet => ⟨hquiet.sent, hquiet.codes, hquiet.typed⟩, fun _ => rfl, rfl⟩
  | records now text fields hfields htext hsockets hrecorded =>
      have hconsole : s.console = none := by
        by_contra hconsole
        subst hfields
        obtain ⟨inner, hinner⟩ := lookup_data_of_console (hraw hconsole)
        rw [htext] at hinner
        cases hinner
      have hquiet : Quiet { hub' with recorded := hub.recorded } := by
        refine h.modify ?_ hsockets rfl
        intro s' hs'
        exact ⟨fun hquiet => ⟨hquiet.sent, hquiet.codes, hquiet.typed⟩, fun _ => rfl, rfl⟩
      refine ⟨hquiet.sockets, ?_, ?_⟩
      · rw [hrecorded, List.map_append]
        refine List.nodup_append'.mpr ⟨h.once, List.nodup_singleton _, ?_⟩
        intro j hj hj'
        obtain ⟨r, hr, rfl⟩ := List.mem_map.mp hj
        obtain ⟨s', hs', hended', -⟩ := h.done r hr
        rw [List.mem_singleton.mp hj', hs] at hs'
        obtain rfl := Option.some.inj hs'
        rw [hended] at hended'
        cases hended'
      · intro r hr
        rw [hrecorded] at hr
        rcases List.mem_append.mp hr with hr | hr
        · exact hquiet.done r hr
        · obtain rfl := List.mem_singleton.mp hr
          rw [hsockets, List.getElem?_modify_eq, hs]
          exact ⟨_, rfl, rfl, hconsole⟩

/-- **The handlers stay quiet** whatever frame comes next. -/
theorem Quiet.handle (h : hub.Quiet) (i : ℕ) (now : ℚ) (stores : Bool) :
    (hub.handle i now stores).Quiet := by
  have hfinish : (hub.finish i).Quiet := by
    refine h.modify (fun s _ => ?_) rfl rfl
    exact ⟨fun hquiet => ⟨hquiet.sent, hquiet.codes, hquiet.typed⟩, fun _ => rfl, rfl⟩
  unfold TerminalHub.handle
  split
  · exact h
  next s hs =>
    by_cases hended : s.ended = true
    · rw [if_pos hended]
      exact h
    rw [if_neg hended]
    split
    · next raw inbox hinbox =>
        have hquiet := h.sockets s (List.mem_of_getElem? hs)
        have hpopped : (hub.setSocket i fun s => { s with inbox := inbox }).Quiet := by
          refine h.modify ?_ rfl rfl
          intro s' hs'
          obtain rfl := Option.some.inj (hs.symm.trans hs')
          refine ⟨fun _ => ⟨hquiet.sent, hquiet.codes, fun hconsole raw' hraw' => ?_⟩, id, rfl⟩
          exact hquiet.typed hconsole raw' (hinbox ▸ List.mem_cons_of_mem _ hraw')
        refine hpopped.handled (s := { s with inbox := inbox }) ?_ (by simpa using hended)
          (fun hconsole => hquiet.typed hconsole raw (hinbox ▸ List.mem_cons_self)) handled_turn
        change (hub.sockets.modify i _)[i]? = _
        rw [List.getElem?_modify_eq, hs]
        rfl
    · split
      · exact hfinish
      · exact h

end TerminalHub

/-! ### Consoles hear nothing -/

namespace TerminalNet

open TerminalHub

variable {net : TerminalNet} {i k : ℕ}

/-- A console that shows nothing, and has received only greetings if it is open. -/
structure SilentConsole (c : TerminalConsole) : Prop where
  buffer : c.buffer = ""
  heard : c.closed = false → ∀ f ∈ c.heard, f = .status "open" none

/-- The handlers are quiet, and so are the consoles. -/
structure Silent (net : TerminalNet) : Prop where
  hub : net.hub.Quiet
  consoles : ∀ k, SilentConsole (net.consoles k)

theorem Silent.setConsole (h : net.Silent) {c : TerminalConsole} (hc : SilentConsole c) :
    (net.setConsole k c).Silent where
  hub := h.hub
  consoles k' := by
    change SilentConsole (if k' = k then c else net.consoles k')
    split
    · exact hc
    · exact h.consoles k'

theorem Silent.setSocket (h : net.Silent) {f : TerminalSocket → TerminalSocket}
    (hf : ∀ s, net.hub.sockets[i]? = some s → KeepsSocket f s) : (net.setSocket i f).Silent where
  hub := h.hub.modify hf rfl rfl
  consoles := h.consoles

theorem keeps_client {f : TerminalSocket → TerminalSocket} (s : TerminalSocket)
    (hf : ∃ opened left hears arrived, f s = { s with
      opened := opened, left := left, hears := hears, arrived := arrived }) : KeepsSocket f s := by
  obtain ⟨_, _, _, _, hf⟩ := hf
  refine ⟨fun hquiet => ?_, fun hended => ?_, ?_⟩
  · rw [hf]
    exact ⟨hquiet.sent, hquiet.codes, hquiet.typed⟩
  · rw [hf]
    exact hended
  · rw [hf]

theorem Silent.leave (h : net.Silent) (i : ℕ) : (net.leave i).Silent :=
  h.setSocket fun s _ => keeps_client s ⟨_, _, _, _, rfl⟩

theorem Silent.sendFrom (h : net.Silent) {raw : Option Json}
    (hraw : ∀ s, net.hub.sockets[i]? = some s → s.console ≠ none → OfConsole raw) :
    (net.sendFrom i raw).Silent := by
  refine h.setSocket fun s hs => ⟨fun hquiet => ?_, fun hended => ?_, ?_⟩
  · split
    · refine ⟨hquiet.sent, hquiet.codes, fun hconsole raw' hraw' => ?_⟩
      rcases List.mem_append.mp hraw' with hraw' | hraw'
      · exact hquiet.typed hconsole raw' hraw'
      · rw [List.mem_singleton.mp hraw']
        exact hraw s hs hconsole
    · exact hquiet
  · split
    · exact hended
    · exact hended
  · split <;> rfl

theorem Silent.sendBy (h : net.Silent) (k : ℕ) {raw : Json} (hraw : OfConsole (some raw)) :
    (net.sendBy k raw).Silent := by
  unfold TerminalNet.sendBy
  split
  · exact h
  · exact h.sendFrom fun _ _ _ => hraw

theorem Silent.goToConnect (h : net.Silent) (k : ℕ) : (net.goToConnect k).Silent := by
  unfold TerminalNet.goToConnect
  dsimp only
  split
  · exact h
  · exact h.setConsole ⟨(h.consoles k).buffer, (h.consoles k).heard⟩

theorem Silent.onOpen (h : net.Silent) (i : ℕ) (s : TerminalSocket) : (net.onOpen i s).Silent := by
  have hopened : (net.setSocket i fun s => { s with opened := true }).Silent :=
    h.setSocket fun s _ => keeps_client s ⟨_, _, _, _, rfl⟩
  unfold TerminalNet.onOpen
  split
  · exact hopened
  next k _ =>
    have hk : SilentConsole { net.consoles k with connecting := false } :=
      ⟨(h.consoles k).buffer, (h.consoles k).heard⟩
    exact (hopened.setConsole (k := k) hk).sendFrom fun _ _ _ => .inl ⟨net.consoles k, rfl⟩

/-- **A reply arrives**: after a greeting a console is as it was, and another one closes it. -/
theorem Silent.onMessage (h : net.Silent) {s : TerminalSocket} {frame : TerminalFrame}
    (hs : net.hub.sockets[i]? = some s) (hframe : frame ∈ s.sent) :
    (net.onMessage i s frame).Silent := by
  have harrived : (net.setSocket i fun s => { s with arrived := s.arrived + 1 }).Silent :=
    h.setSocket fun s _ => keeps_client s ⟨_, _, _, _, rfl⟩
  unfold TerminalNet.onMessage
  split
  · exact harrived
  next k hconsole =>
    have hk := h.consoles k
    rcases (h.hub.sockets s (List.mem_of_getElem? hs)).sent frame hframe with
      rfl | rfl | ⟨-, hnone⟩
    · refine harrived.setConsole ⟨hk.buffer, fun hclosed f hf => ?_⟩
      rcases List.mem_append.mp hf with hf | hf
      · exact hk.heard hclosed f hf
      · exact List.mem_singleton.mp hf
    · have hclosed : SilentConsole ((net.consoles k).onMessage (.status "resized" none)) :=
        ⟨hk.buffer, fun hopen => absurd hopen (by simp [TerminalConsole.onMessage])⟩
      exact (harrived.setConsole hclosed).leave i
    · rw [hconsole] at hnone
      cases hnone

theorem Silent.onClose (h : net.Silent) (i code : ℕ) (s : TerminalSocket) :
    (net.onClose i code s).Silent := by
  have hclosed : (net.setSocket i fun s => { s with left := true, hears := false }).Silent :=
    h.setSocket fun s _ => keeps_client s ⟨_, _, _, _, rfl⟩
  unfold TerminalNet.onClose
  split
  · exact hclosed
  next k _ =>
    refine hclosed.setConsole ⟨(h.consoles k).buffer, fun hopen => (h.consoles k).heard ?_⟩
    exact (Bool.or_eq_false_iff.mp hopen).1

/-- **Every operation keeps the consoles silent.** -/
theorem Silent.apply (h : net.Silent) (op : TerminalOp) : (net.apply op).Silent := by
  cases op with
  | handle i now stores => exact ⟨h.hub.handle i now stores, h.consoles⟩
  | others desk => exact ⟨⟨h.hub.sockets, h.hub.once, h.hub.done⟩, h.consoles⟩
  | clientConnects sessionId verified limits now =>
      exact ⟨h.hub.connect sessionId verified limits none, h.consoles⟩
  | clientSends i raw =>
      rw [TerminalNet.apply]
      split
      next hother =>
        refine h.sendFrom fun s hs hconsole => absurd ?_ hconsole
        rw [otherClient, hs] at hother
        exact Option.isNone_iff_eq_none.mp hother
      next => exact h
  | clientLeaves i =>
      rw [TerminalNet.apply]
      split
      · exact h.leave i
      · exact h
  | start k =>
      refine Silent.goToConnect (h.setConsole ⟨rfl, fun _ f hf => ?_⟩) k
      exact absurd hf List.not_mem_nil
  | stop k =>
      have hstopped : (net.setConsole k
          { net.consoles k with closed := true, socket := none }).Silent :=
        h.setConsole ⟨(h.consoles k).buffer, fun hclosed => Bool.noConfusion hclosed⟩
      rw [TerminalNet.apply]
      split
      · exact hstopped
      · exact hstopped.setSocket fun s _ => keeps_client s ⟨_, _, _, _, rfl⟩
  | resize k cols rows =>
      let c := { net.consoles k with cols := cols, rows := rows }
      exact Silent.sendBy (h.setConsole (c := c) ⟨(h.consoles k).buffer, (h.consoles k).heard⟩) k
        (.inl ⟨c, rfl⟩)
  | input k data => exact h.sendBy k (.inr ⟨data, rfl⟩)
  | goesToConnect k => exact h.goToConnect k
  | opensSocket k verified limits now =>
      rw [TerminalNet.apply]
      split
      · have hk : SilentConsole
            { net.consoles k with socket := some net.hub.sockets.length } :=
          ⟨(h.consoles k).buffer, (h.consoles k).heard⟩
        have hconnected : Silent { net with
            hub := net.hub.connect (net.consoles k).sessionId verified limits now (some k) } :=
          ⟨h.hub.connect _ verified limits (some k), h.consoles⟩
        exact hconnected.setConsole hk
      · exact h
  | getsNoToken k => exact h.setConsole ⟨(h.consoles k).buffer, (h.consoles k).heard⟩
  | onOpen i =>
      rw [TerminalNet.apply]
      split
      next s hs =>
        split
        · exact h.onOpen i s
        · exact h
      next => exact h
  | onMessage i =>
      rw [TerminalNet.apply]
      split
      next s hs =>
        split
        · split
          next frame hframe => exact h.onMessage hs (List.mem_of_getElem? hframe)
          next => exact h
        · exact h
      next => exact h
  | onClose i code =>
      rw [TerminalNet.apply]
      split
      next s hs =>
        split
        · exact h.onClose i code s
        · exact h
      next => exact h

theorem silent_fresh (desk : Desk) (sessionId cols rows : ℕ → ℕ) :
    (fresh desk sessionId cols rows).Silent where
  hub := ⟨fun _ hs => absurd hs List.not_mem_nil, List.nodup_nil,
    fun _ hr => absurd hr List.not_mem_nil⟩
  consoles _ := ⟨rfl, fun _ _ hf => absurd hf List.not_mem_nil⟩

theorem silent_run (desk : Desk) (sessionId cols rows : ℕ → ℕ) (ops : List TerminalOp) :
    (run apply (fresh desk sessionId cols rows) ops).Silent :=
  run_invariant (P := fun net : TerminalNet => net.Silent) (fun _ op h => h.apply op)
    (silent_fresh desk sessionId cols rows) ops

/-- **The consoles show nothing.** In every run no handler sends output or a close code on a socket
that it has accepted; a console that is open has received greetings only; and each text that is
recorded was typed into a socket of another client, which it has ended. -/
theorem console_hears_nothing (desk : Desk) (sessionId cols rows : ℕ → ℕ)
    (ops : List TerminalOp) :
    let net := run apply (fresh desk sessionId cols rows) ops
    (∀ k, (net.consoles k).buffer = "" ∧
      ((net.consoles k).closed = false →
        ∀ f ∈ (net.consoles k).heard, f = .status "open" none)) ∧
    (∀ s ∈ net.hub.sockets,
      (∀ data, .output data ∉ s.sent) ∧ (s.accepted = true → s.closeCode = none)) ∧
    (net.hub.recorded.map TypedText.socket).Nodup ∧
    ∀ r ∈ net.hub.recorded, ∃ s,
      net.hub.sockets[r.socket]? = some s ∧ s.ended = true ∧ s.console = none := by
  intro net
  have h : net.Silent := silent_run desk sessionId cols rows ops
  refine ⟨fun k => ⟨(h.consoles k).buffer, (h.consoles k).heard⟩, fun s hs => ?_, h.hub.once,
    h.hub.done⟩
  refine ⟨fun data hdata => ?_, (h.hub.sockets s hs).codes⟩
  rcases (h.hub.sockets s hs).sent _ hdata with heq | heq | ⟨heq, -⟩ <;> cases heq

/-- An open session of a user. -/
def openDesk : Desk :=
  { Desk.fresh [] ⟨[], none, false⟩ [] with
    sessions := [⟨1, 1, 1, .open, "", false, none, 1, some 0, none, 0⟩], nextSession := 2 }

/-- A console connects, is answered, and is closed; another client types a line that is recorded. -/
example :
    let net := run apply (fresh openDesk (fun _ => 1) (fun _ => 120) fun _ => 40)
      [.start 0, .opensSocket 0 true (some ⟨1800, 14400⟩) 1, .onOpen 0, .input 0 "ls",
        .handle 0 2 true, .handle 0 2 true, .onMessage 0, .onMessage 0,
        .clientConnects 1 true (some ⟨1800, 14400⟩) 3, .onOpen 1,
        .clientSends 1 (some (.obj [("type", .str "input"), ("data", .str "id")])),
        .handle 1 4 true]
    (net.consoles 0).heard = [.status "open" none, .status "resized" none] ∧
      (net.consoles 0).closed = true ∧ net.hub.recorded = [⟨1, 1, "id\n"⟩] ∧
      net.hub.sockets.map TerminalSocket.ended = [true, true] := by
  decide +kernel

end TerminalNet

end LarkPlat
