import LarkPlat.JsonPaths
import LarkPlat.Machine

/-!
# The Registry of Agents

Each agent holds a WebSocket to the gateway. The registry `_agents` names, for each agent, the
socket that frames for it are sent to. A socket registers when it is accepted, its heartbeats update
the entry, and the end of its handler removes the entry, all by the identifier of the agent: an
agent that reconnects before the handler of its old socket has ended loses the entry of its new
socket.

The handlers are coroutines. What a handler does between two points at which it waits is one
operation, and the operations of all sockets come in any order. A greeting that cannot be sent ends
the handler before its clean-up is armed.

## Main results

* `registry_tracks_iff`: in a run, the registry names the latest open socket of each agent in every
  state and no heartbeat raises, exactly if no socket ends while its agent has another one open, no
  greeting of a latest socket fails, and every heartbeat carries data that the host takes.
* `reconnect_unlisted`: an agent that reconnects too early is left without an entry, and its next
  heartbeat raises.
-/

namespace LarkPlat

/-! ### The gateway -/

/-- An entry of `_agents`. -/
structure AgentEntry where
  ws : ℕ
  lastHeartbeat : ℚ
  deriving DecidableEq

/-- A socket that was accepted. Its number is its place in the list of all sockets. -/
structure AgentSocket where
  agentId : String
  /-- The greeting is sent, and the handler reads frames. -/
  greeted : Bool
  /-- The handler has ended. -/
  ended : Bool

/-- The columns of `asset_host` that the gateway reads and writes. -/
structure AgentHost where
  id : ℕ
  hostname : String
  ip : String
  agentId : Option String
  status : String
  lastHeartbeatAt : Option ℚ
  osType : Json
  osVersion : Json
  agentVersion : Json

/-- The gateway: `_agents`, all sockets in the order in which they were accepted, and the hosts. -/
structure Gateway where
  agents : String → Option AgentEntry
  sockets : List AgentSocket
  hosts : List AgentHost

namespace Gateway

/-- The columns take the row. -/
abbrev HostColumns : Type := AgentHost → Bool

variable (columns : HostColumns)

/-! ### Hosts -/

/-- `(data.get(k) or "").strip()`. -/
def strippedField (data : Json) (k : String) : Except PyErr String := do
  match (← data.get k).pyOr (.str "") with
  | .str s => pure (String.ofList (Json.strip s.toList))
  | _ => throw .attributeError

/-- The row is written. -/
def writeHost (hosts : List AgentHost) (row : AgentHost) : Except PyErr (List AgentHost) :=
  if columns row then .ok (hosts.map fun h => if h.id = row.id then row else h)
  else .error .integrityError

/-- `_bind_host`. -/
def bindHost (agentId : String) (data : Json) (hosts : List AgentHost) :
    Except PyErr (List AgentHost) := do
  let hostname ← strippedField data "hostname"
  let ip ← strippedField data "ip"
  if hostname = "" ∧ ip = "" then pure hosts
  else if hosts.any fun h => decide (h.agentId = some agentId) then pure hosts
  else
    match hosts.filter fun h => decide (h.agentId = none ∧
        ((ip ≠ "" ∧ h.ip = ip) ∨ (hostname ≠ "" ∧ h.hostname = hostname))) with
    | [host] => writeHost columns hosts { host with agentId := some agentId }
    | _ => pure hosts

/-- `_mark_online`. -/
def markOnline (agentId : String) (data : Json) (now : ℚ) (hosts : List AgentHost) :
    Except PyErr (List AgentHost) :=
  match hosts.find? fun h => decide (h.agentId = some agentId) with
  | none => .ok hosts
  | some host => do
      let osType ← data.get "os_type"
      let osVersion ← data.get "os_version"
      let agentVersion ← data.get "agent_version"
      writeHost columns hosts
        { host with
          status := "online"
          lastHeartbeatAt := some now
          osType := osType.pyOr host.osType
          osVersion := osVersion.pyOr host.osVersion
          agentVersion := agentVersion.pyOr host.agentVersion }

/-- `_mark_offline`. -/
def markOffline (agentId : String) (hosts : List AgentHost) : List AgentHost :=
  match hosts.find? fun h => decide (h.agentId = some agentId) with
  | none => hosts
  | some host => hosts.map fun h => if h.id = host.id then { host with status := "offline" } else h

/-! ### The handler of a socket -/

/-- `_agents[agent_id] = entry`. -/
def setEntry (st : Gateway) (agentId : String) (entry : Option AgentEntry) : Gateway :=
  { st with agents := fun a => if a = agentId then entry else st.agents a }

/-- A change of a socket. -/
def setSocket (st : Gateway) (i : ℕ) (s : AgentSocket) : Gateway :=
  { st with sockets := st.sockets.set i s }

/-- `agent_ws` up to the greeting: the socket is accepted and registered. -/
def accept (st : Gateway) (agentId : String) (now : ℚ) : Gateway :=
  let accepted : Gateway := { st with sockets := st.sockets ++ [⟨agentId, false, false⟩] }
  accepted.setEntry agentId (some ⟨st.sockets.length, now⟩)

/-- The end of `agent_ws`, from its `finally`. -/
def endHandler (st : Gateway) (i : ℕ) (s : AgentSocket) : Gateway :=
  let st := (st.setSocket i { s with ended := true }).setEntry s.agentId none
  { st with hosts := markOffline s.agentId st.hosts }

/-- A heartbeat frame up to its answer: `_agents[agent_id]["last_heartbeat"] = now`, and the host is
marked. -/
def heartbeat (st : Gateway) (agentId : String) (data : Json) (now : ℚ) : Except PyErr Gateway :=
  match st.agents agentId with
  | none => .error .keyError
  | some entry => do
      let hosts ← markOnline columns agentId data now st.hosts
      pure { st.setEntry agentId (some { entry with lastHeartbeat := now }) with hosts := hosts }

/-- What a frame says: its type and its data. `none` if it cannot be read. -/
def readFrame (raw : Option Json) : Except PyErr (Option (Json × Json)) :=
  match raw with
  | none => .ok none
  | some frame => do
      pure (some (← frame.get "type", (← frame.get "data").pyOr (.obj [])))

/-- The frames that are handed on to the handlers of executions and transfers. -/
def handedOn : List String :=
  ["exec_log", "exec_result", "file_chunk_ack", "file_chunk", "file_result"]

/-- A frame that is no heartbeat: the gateway after it, and whether the handler goes on. `returns`
says whether the handler that the frame is handed on to does, `sent` whether the answer is sent. -/
def otherFrame (st : Gateway) (agentId : String) (mtype data : Json) (now : ℚ)
    (returns sent : Bool) : Gateway × Bool :=
  if mtype = .str "hello" then
    match bindHost columns agentId data st.hosts with
    | .error _ => (st, false)
    | .ok bound =>
        match markOnline columns agentId data now bound with
        | .error _ => ({ st with hosts := bound }, false)
        | .ok hosts => ({ st with hosts := hosts }, sent)
  else if handedOn.any fun t => decide (mtype = .str t) then (st, returns)
  else (st, true)

/-- A frame arrives at a socket that reads frames: the gateway after it, and whether the handler
goes on. -/
def handleFrame (st : Gateway) (agentId : String) (raw : Option Json) (now : ℚ)
    (returns sent : Bool) : Gateway × Bool :=
  match readFrame raw with
  | .error _ => (st, false)
  | .ok none => (st, true)
  | .ok (some (mtype, data)) =>
      if mtype = .str "heartbeat" then
        match heartbeat columns st agentId data now with
        | .error _ => (st, false)
        | .ok st' => (st', sent)
      else otherFrame columns st agentId mtype data now returns sent

/-! ### Interleavings -/

/-- What a handler does up to the next point at which it waits. -/
inductive Op where
  /-- A socket with a valid token is accepted. -/
  | accept (agentId : String) (now : ℚ)
  /-- The greeting is sent, or sending it raises. -/
  | greet (i : ℕ) (sent : Bool)
  /-- A frame arrives. -/
  | frame (i : ℕ) (raw : Option Json) (now : ℚ) (returns sent : Bool)
  /-- The socket is closed. -/
  | disconnect (i : ℕ)

/-- A socket in a phase of its handler. -/
def socketAt (st : Gateway) (i : ℕ) (greeted : Bool) : Option AgentSocket :=
  st.sockets[i]?.filter fun s => decide (s.greeted = greeted ∧ s.ended = false)

/-- After an operation. -/
def apply (st : Gateway) : Op → Gateway
  | .accept agentId now => st.accept agentId now
  | .greet i sent =>
      match st.socketAt i false with
      | none => st
      | some s =>
          st.setSocket i (if sent then { s with greeted := true } else { s with ended := true })
  | .frame i raw now returns sent =>
      match st.socketAt i true with
      | none => st
      | some s =>
          let r := handleFrame columns st s.agentId raw now returns sent
          if r.2 then r.1 else r.1.endHandler i s
  | .disconnect i =>
      match st.socketAt i true with
      | none => st
      | some s => st.endHandler i s

/-! ### The registry and the open sockets -/

/-- The socket of the agent is accepted and its handler has not ended. -/
def Open (st : Gateway) (i : ℕ) (agentId : String) : Prop :=
  ∃ s, st.sockets[i]? = some s ∧ s.agentId = agentId ∧ s.ended = false

/-- The registry names the latest open socket of each agent that has one. -/
structure Tracked (st : Gateway) : Prop where
  listed : ∀ a, (∃ e, st.agents a = some e) ↔ ∃ i, st.Open i a
  latest : ∀ a e, st.agents a = some e → st.Open e.ws a ∧ ∀ j, st.Open j a → j ≤ e.ws

/-- A heartbeat that arrives does not raise. -/
def HeartbeatReturns (st : Gateway) : Op → Prop
  | .frame i raw now _ _ => ∀ s ∈ st.socketAt i true, ∀ data,
      readFrame raw = .ok (some (.str "heartbeat", data)) →
        ∃ st', heartbeat columns st s.agentId data now = .ok st'
  | _ => True

/-- The agent has no other open socket. -/
def Alone (st : Gateway) (i : ℕ) (agentId : String) : Prop := ∀ j, st.Open j agentId → j = i

/-- The frame is handled without an exception, as far as it is no matter of the registry. -/
def FrameReturns (st : Gateway) (agentId : String) (raw : Option Json) (now : ℚ)
    (returns sent : Bool) : Prop :=
  ∃ frame, readFrame raw = .ok frame ∧ ∀ mtype data, frame = some (mtype, data) →
    if mtype = .str "heartbeat" then sent = true
    else (otherFrame columns st agentId mtype data now returns sent).2 = true

/-- No socket ends while its agent has another one open, the greeting of a latest socket is sent,
and a heartbeat carries data that the host takes. -/
def Undisturbed (st : Gateway) : Op → Prop
  | .accept _ _ => True
  | .greet i sent => ∀ s ∈ st.socketAt i false, sent = true ∨ ∃ j, i < j ∧ st.Open j s.agentId
  | .frame i raw now returns sent => ∀ s ∈ st.socketAt i true,
      (FrameReturns columns st s.agentId raw now returns sent ∨ st.Alone i s.agentId) ∧
        ∀ data, readFrame raw = .ok (some (.str "heartbeat", data)) →
          ∃ hosts, markOnline columns s.agentId data now st.hosts = .ok hosts
  | .disconnect i => ∀ s ∈ st.socketAt i true, st.Alone i s.agentId

variable {columns} {st st' : Gateway} {i : ℕ} {s : AgentSocket}

/-! ### How the open sockets change -/

theorem socketAt_eq_some {greeted : Bool} (h : st.socketAt i greeted = some s) :
    st.sockets[i]? = some s ∧ s.greeted = greeted ∧ s.ended = false := by
  obtain ⟨hs, hphase⟩ := Option.filter_eq_some_iff.mp h
  exact ⟨hs, of_decide_eq_true hphase⟩

theorem open_of_socketAt {greeted : Bool} (h : st.socketAt i greeted = some s) :
    st.Open i s.agentId :=
  ⟨s, (socketAt_eq_some h).1, rfl, (socketAt_eq_some h).2.2⟩

theorem open_setSocket_ended (h : st.sockets[i]? = some s) {j : ℕ} {a : String} :
    (st.setSocket i { s with ended := true }).Open j a ↔ st.Open j a ∧ j ≠ i := by
  obtain ⟨hi, -⟩ := List.getElem?_eq_some_iff.mp h
  by_cases hj : j = i
  · subst hj
    simp [Open, setSocket, hi]
  · simp [Open, setSocket, List.getElem?_set_ne (Ne.symm hj), hj]

theorem open_setSocket_greeted (h : st.sockets[i]? = some s) {j : ℕ} {a : String} :
    (st.setSocket i { s with greeted := true }).Open j a ↔ st.Open j a := by
  obtain ⟨hi, -⟩ := List.getElem?_eq_some_iff.mp h
  by_cases hj : j = i
  · subst hj
    simp only [Open, setSocket, List.getElem?_set_self hi, h, Option.some.injEq, exists_eq_left']
  · simp [Open, setSocket, List.getElem?_set_ne (Ne.symm hj)]

theorem open_accept {agentId : String} {now : ℚ} {j : ℕ} {a : String} :
    (st.accept agentId now).Open j a ↔
      st.Open j a ∨ (j = st.sockets.length ∧ a = agentId) := by
  rcases Nat.lt_trichotomy j st.sockets.length with hj | hj | hj
  · simp [Open, accept, setEntry, List.getElem?_append_left hj, hj.ne]
  · subst hj
    have hself : (st.sockets ++ [⟨agentId, false, false⟩])[st.sockets.length]? =
        some ⟨agentId, false, false⟩ := List.getElem?_concat_length
    constructor
    · rintro ⟨s, hs, ha, -⟩
      obtain rfl := Option.some.inj (hself.symm.trans hs)
      exact .inr ⟨rfl, ha.symm⟩
    · rintro (⟨s, hs, -⟩ | ⟨-, rfl⟩)
      · simp at hs
      · exact ⟨_, hself, rfl, rfl⟩
  · have hout : (st.sockets ++ [⟨agentId, false, false⟩])[j]? = none := by
      rw [List.getElem?_eq_none_iff, List.length_append, List.length_singleton]
      exact hj
    simp [Open, accept, setEntry, hout, List.getElem?_eq_none hj.le, hj.ne']

theorem Open.lt {a : String} (h : st.Open i a) : i < st.sockets.length := by
  obtain ⟨s, hs, -⟩ := h
  exact (List.getElem?_eq_some_iff.mp hs).1

theorem Open.agentId_unique {a b : String} (h : st.Open i a) (h' : st.Open i b) : a = b := by
  obtain ⟨s, hs, rfl, -⟩ := h
  obtain ⟨s', hs', rfl, -⟩ := h'
  rw [hs] at hs'
  rw [Option.some.inj hs']

/-! ### The registry after an operation -/

theorem Tracked.congr (h : Tracked st)
    (hentry : ∀ a, (st'.agents a).map AgentEntry.ws = (st.agents a).map AgentEntry.ws)
    (hopen : ∀ j a, st'.Open j a ↔ st.Open j a) : Tracked st' := by
  constructor
  · intro a
    have hsome : (∃ e, st'.agents a = some e) ↔ ∃ e, st.agents a = some e := by
      have := congrArg Option.isSome (hentry a)
      rw [Option.isSome_map, Option.isSome_map] at this
      rw [← Option.isSome_iff_exists, ← Option.isSome_iff_exists, this]
    rw [hsome, h.listed]
    exact exists_congr fun j => (hopen j a).symm
  · intro a e' he'
    have hmap := hentry a
    rw [he', Option.map_some] at hmap
    obtain ⟨e, he, hws⟩ := Option.map_eq_some_iff.mp hmap.symm
    obtain ⟨hlatest, hle⟩ := h.latest a e he
    rw [← hws]
    exact ⟨(hopen _ _).mpr hlatest, fun j hj => hle j ((hopen j a).mp hj)⟩

theorem Tracked.accept (h : Tracked st) (agentId : String) (now : ℚ) :
    Tracked (st.accept agentId now) := by
  have hself : (st.accept agentId now).Open st.sockets.length agentId :=
    open_accept.mpr (.inr ⟨rfl, rfl⟩)
  constructor
  · intro a
    by_cases ha : a = agentId
    · subst ha
      simp only [Gateway.accept, setEntry, if_pos]
      exact ⟨fun _ => ⟨_, hself⟩, fun _ => ⟨_, rfl⟩⟩
    · have hentry : (st.accept agentId now).agents a = st.agents a := if_neg ha
      rw [hentry, h.listed]
      exact exists_congr fun j => by simp [open_accept, ha]
  · intro a e he
    by_cases ha : a = agentId
    · subst ha
      obtain rfl : (⟨st.sockets.length, now⟩ : AgentEntry) = e :=
        Option.some.inj ((if_pos rfl).symm.trans he)
      refine ⟨hself, fun j hj => ?_⟩
      rcases open_accept.mp hj with hj | ⟨rfl, -⟩
      · exact hj.lt.le
      · exact le_refl _
    · have hentry : (st.accept agentId now).agents a = st.agents a := if_neg ha
      obtain ⟨hlatest, hle⟩ := h.latest a e (hentry ▸ he)
      refine ⟨open_accept.mpr (.inl hlatest), fun j hj => ?_⟩
      rcases open_accept.mp hj with hj | ⟨-, rfl⟩
      · exact hle j hj
      · exact absurd rfl ha

/-- The end of a handler keeps the registry in step exactly if the agent has no other socket. -/
theorem tracked_endHandler_iff (h : Tracked st) (hs : st.sockets[i]? = some s)
    (hopen : st.Open i s.agentId) :
    Tracked (st.endHandler i s) ↔ st.Alone i s.agentId := by
  have hstill : ∀ j a, (st.endHandler i s).Open j a ↔ st.Open j a ∧ j ≠ i :=
    fun j a => open_setSocket_ended hs
  constructor
  · intro h' j hj
    by_contra hne
    obtain ⟨e, he⟩ := (h'.listed s.agentId).mpr ⟨j, (hstill j _).mpr ⟨hj, hne⟩⟩
    simp [endHandler, setEntry] at he
  · intro halone
    constructor
    · intro a
      by_cases ha : a = s.agentId
      · subst ha
        constructor
        · rintro ⟨e, he⟩
          simp [endHandler, setEntry] at he
        · rintro ⟨j, hj⟩
          obtain ⟨hj, hne⟩ := (hstill j _).mp hj
          exact absurd (halone j hj) hne
      · have hentry : (st.endHandler i s).agents a = st.agents a := if_neg ha
        rw [hentry, h.listed]
        refine exists_congr fun j => ?_
        rw [hstill]
        refine (and_iff_left_of_imp fun hj hji => ?_).symm
        subst hji
        exact ha (hj.agentId_unique hopen)
    · intro a e he
      by_cases ha : a = s.agentId
      · simp [endHandler, setEntry, setSocket, ha] at he
      · have hentry : (st.endHandler i s).agents a = st.agents a := if_neg ha
        obtain ⟨hlatest, hle⟩ := h.latest a e (hentry ▸ he)
        refine ⟨(hstill _ _).mpr ⟨hlatest, fun hji => ?_⟩, fun j hj => hle j ((hstill j a).mp hj).1⟩
        exact ha ((hji ▸ hlatest).agentId_unique hopen)

/-- A handler that ends at its greeting keeps the registry in step exactly if the agent has a later
socket. -/
theorem tracked_greetingFailed_iff (h : Tracked st) (hs : st.sockets[i]? = some s)
    (hopen : st.Open i s.agentId) :
    Tracked (st.setSocket i { s with ended := true }) ↔ ∃ j, i < j ∧ st.Open j s.agentId := by
  have hstill : ∀ j a, (st.setSocket i { s with ended := true }).Open j a ↔ st.Open j a ∧ j ≠ i :=
    fun j a => open_setSocket_ended hs
  obtain ⟨e, he⟩ := (h.listed s.agentId).mpr ⟨i, hopen⟩
  obtain ⟨hlatest, hle⟩ := h.latest s.agentId e he
  constructor
  · intro h'
    obtain ⟨hlatest', -⟩ := h'.latest s.agentId e he
    have hne := ((hstill _ _).mp hlatest').2
    exact ⟨e.ws, lt_of_le_of_ne (hle i hopen) (Ne.symm hne), hlatest⟩
  · rintro ⟨j, hij, hj⟩
    -- the entry of the agent names the later socket, and those of others none of its sockets
    have hkeeps : ∀ a e', st.agents a = some e' →
        (st.setSocket i { s with ended := true }).Open e'.ws a := by
      intro a e' he'
      obtain ⟨hlatest', hle'⟩ := h.latest a e' he'
      refine (hstill _ _).mpr ⟨hlatest', fun hi => ?_⟩
      obtain rfl := (hi ▸ hlatest').agentId_unique hopen
      exact (hij.trans_le (hle' j hj)).ne' hi
    constructor
    · intro a
      refine ⟨fun ⟨e', he'⟩ => ⟨_, hkeeps a e' he'⟩, fun ⟨j', hj'⟩ => ?_⟩
      exact (h.listed a).mpr ⟨j', ((hstill _ _).mp hj').1⟩
    · intro a e' he'
      exact ⟨hkeeps a e' he', fun j' hj' => (h.latest a e' he').2 j' ((hstill _ _).mp hj').1⟩

theorem heartbeat_registry {agentId : String} {data : Json} {now : ℚ}
    (h : heartbeat columns st agentId data now = .ok st') :
    (∀ a, (st'.agents a).map AgentEntry.ws = (st.agents a).map AgentEntry.ws) ∧
      st'.sockets = st.sockets := by
  rw [heartbeat] at h
  cases hentry : st.agents agentId with
  | none =>
      rw [hentry] at h
      cases h
  | some entry =>
      rw [hentry] at h
      obtain ⟨hosts, -, h⟩ := bind_eq_ok.mp h
      obtain rfl := Except.ok.inj h
      refine ⟨fun a => ?_, rfl⟩
      by_cases ha : a = agentId
      · subst ha
        simp [setEntry, hentry]
      · simp [setEntry, ha]

/-- Where the agent has an entry, a heartbeat raises only if the host does not take its data. -/
theorem heartbeat_returns_iff {agentId : String} {data : Json} {now : ℚ}
    (h : ∃ e, st.agents agentId = some e) :
    (∃ st', heartbeat columns st agentId data now = .ok st') ↔
      ∃ hosts, markOnline columns agentId data now st.hosts = .ok hosts := by
  obtain ⟨e, he⟩ := h
  rw [heartbeat, he]
  cases markOnline columns agentId data now st.hosts with
  | error err => exact ⟨fun ⟨_, h⟩ => (by cases h), fun ⟨_, h⟩ => (by cases h)⟩
  | ok hosts => exact ⟨fun _ => ⟨hosts, rfl⟩, fun _ => ⟨_, rfl⟩⟩

theorem otherFrame_registry (columns : HostColumns) (st : Gateway) {agentId : String}
    {mtype data : Json} {now : ℚ} {returns sent : Bool} :
    (otherFrame columns st agentId mtype data now returns sent).1.agents = st.agents ∧
      (otherFrame columns st agentId mtype data now returns sent).1.sockets = st.sockets := by
  rw [otherFrame]
  split_ifs
  · cases bindHost columns agentId data st.hosts with
    | error e => exact ⟨rfl, rfl⟩
    | ok bound =>
        dsimp only
        cases markOnline columns agentId data now bound <;> exact ⟨rfl, rfl⟩
  · exact ⟨rfl, rfl⟩
  · exact ⟨rfl, rfl⟩

theorem handleFrame_registry (columns : HostColumns) (st : Gateway) (agentId : String)
    (raw : Option Json) (now : ℚ) (returns sent : Bool) :
    (∀ a, ((handleFrame columns st agentId raw now returns sent).1.agents a).map AgentEntry.ws =
        (st.agents a).map AgentEntry.ws) ∧
      (handleFrame columns st agentId raw now returns sent).1.sockets = st.sockets := by
  rw [handleFrame]
  cases readFrame raw with
  | error e => exact ⟨fun _ => rfl, rfl⟩
  | ok frame =>
      cases frame with
      | none => exact ⟨fun _ => rfl, rfl⟩
      | some p =>
          dsimp only
          split_ifs
          · cases hbeat : heartbeat columns st agentId p.2 now with
            | error e => exact ⟨fun _ => rfl, rfl⟩
            | ok st' => exact heartbeat_registry hbeat
          · obtain ⟨hagents, hsockets⟩ := otherFrame_registry columns st
            exact ⟨fun a => by rw [hagents], hsockets⟩

/-- Where a heartbeat finds its entry and the host takes its data, the handler goes on after a frame
exactly if nothing else raises. -/
theorem handleFrame_goesOn_iff {agentId : String} {raw : Option Json} {now : ℚ}
    (returns sent : Bool) (hentry : ∃ e, st.agents agentId = some e)
    (hbeat : ∀ data, readFrame raw = .ok (some (.str "heartbeat", data)) →
      ∃ hosts, markOnline columns agentId data now st.hosts = .ok hosts) :
    (handleFrame columns st agentId raw now returns sent).2 = true ↔
      FrameReturns columns st agentId raw now returns sent := by
  rw [handleFrame, FrameReturns]
  cases hread : readFrame raw with
  | error e => simp
  | ok frame =>
      cases frame with
      | none => simp
      | some p =>
          obtain ⟨mtype, data⟩ := p
          simp only [Except.ok.injEq, exists_eq_left', Option.some.injEq, Prod.mk.injEq, and_imp]
          by_cases hm : mtype = .str "heartbeat"
          · subst hm
            obtain ⟨st', hst'⟩ := (heartbeat_returns_iff hentry).mpr (hbeat data hread)
            rw [if_pos rfl, hst']
            exact ⟨fun h _ _ h₁ _ => h₁ ▸ (if_pos rfl).mpr h,
              fun h => (if_pos rfl).mp (h _ _ rfl rfl)⟩
          · rw [if_neg hm]
            constructor
            · rintro h _ _ rfl rfl
              exact (if_neg hm).mpr h
            · intro h
              exact (if_neg hm).mp (h _ _ rfl rfl)

/-! ### Main result -/

theorem tracked_apply_iff (h : Tracked st) (op : Op) :
    Tracked (st.apply columns op) ∧ HeartbeatReturns columns st op ↔ Undisturbed columns st op := by
  cases op with
  | accept agentId now =>
      exact ⟨fun _ => trivial, fun _ => ⟨h.accept agentId now, trivial⟩⟩
  | greet i sent =>
      change Tracked (st.apply columns (.greet i sent)) ∧ True ↔ _
      rw [and_true, Gateway.apply, Undisturbed]
      cases hs : st.socketAt i false with
      | none => simpa using h
      | some s =>
          simp only [Option.mem_def, Option.some.injEq, forall_eq']
          have hget := (socketAt_eq_some hs).1
          cases sent with
          | true =>
              have hgreeted : Tracked (st.setSocket i { s with greeted := true }) :=
                h.congr (fun _ => rfl) fun _ _ => open_setSocket_greeted hget
              simpa using hgreeted
          | false =>
              simpa using tracked_greetingFailed_iff h hget (open_of_socketAt hs)
  | disconnect i =>
      change Tracked (st.apply columns (.disconnect i)) ∧ True ↔ _
      rw [and_true, Gateway.apply, Undisturbed]
      cases hs : st.socketAt i true with
      | none => simpa using h
      | some s =>
          simpa using tracked_endHandler_iff h (socketAt_eq_some hs).1 (open_of_socketAt hs)
  | frame i raw now returns sent =>
      rw [Gateway.apply, HeartbeatReturns, Undisturbed]
      cases hs : st.socketAt i true with
      | none => simpa using h
      | some s =>
          simp only [Option.mem_def, Option.some.injEq, forall_eq']
          have hopen := open_of_socketAt hs
          have hentry := (h.listed s.agentId).mpr ⟨i, hopen⟩
          have hbeats : (∀ data, readFrame raw = .ok (some (.str "heartbeat", data)) →
              ∃ st', heartbeat columns st s.agentId data now = .ok st') ↔
              ∀ data, readFrame raw = .ok (some (.str "heartbeat", data)) →
                ∃ hosts, markOnline columns s.agentId data now st.hosts = .ok hosts :=
            forall₂_congr fun _ _ => heartbeat_returns_iff hentry
          rw [hbeats]
          refine and_congr_left fun hbeat => ?_
          obtain ⟨hws, hsockets⟩ :=
            handleFrame_registry columns st s.agentId raw now returns sent
          have hgoes := handleFrame_goesOn_iff returns sent hentry hbeat
          set r := handleFrame columns st s.agentId raw now returns sent
          have hopens : ∀ j a, r.1.Open j a ↔ st.Open j a := fun j a => by
            rw [Open, Open, hsockets]
          have hr : Tracked r.1 := h.congr hws hopens
          rw [← hgoes]
          by_cases hgo : r.2 = true
          · simp [hgo, hr]
          · have hget : r.1.sockets[i]? = some s := by
              rw [hsockets]
              exact (socketAt_eq_some hs).1
            simp only [hgo, if_neg, Bool.false_eq_true, not_false_eq_true, false_or]
            rw [tracked_endHandler_iff hr hget ((hopens _ _).mpr hopen)]
            exact forall_congr' fun j => by rw [hopens]

/-- The gateway after its start. -/
def started (hosts : List AgentHost) : Gateway := ⟨fun _ => none, [], hosts⟩

theorem started_tracked (hosts : List AgentHost) : Tracked (started hosts) where
  listed := fun a => ⟨fun ⟨_, he⟩ => (by cases he), fun ⟨_, _, hs, _⟩ => (by cases hs)⟩
  latest := fun a e he => (by cases he)

/-- The operation leaves the registry in step with the sockets, and no heartbeat raises. -/
def KeepsTrack (columns : HostColumns) (st : Gateway) (op : Op) : Prop :=
  Tracked (st.apply columns op) ∧ HeartbeatReturns columns st op

/-- **The registry tracks the live connection.** In every state of a run the registry names the
latest open socket of each agent, and no heartbeat raises, exactly if each operation of the run is
undisturbed. -/
theorem registry_tracks_iff (columns : HostColumns) (hosts : List AgentHost) (ops : List Op) :
    Machine.Meets (Gateway.apply columns) (KeepsTrack columns) (started hosts) ops ↔
      Machine.Meets (Gateway.apply columns) (Undisturbed columns) (started hosts) ops := by
  have hiff : ∀ st op, Tracked st → (KeepsTrack columns st op ↔ Undisturbed columns st op) :=
    fun _ op h => tracked_apply_iff h op
  exact Machine.meets_iff_of_invariant hiff (fun _ _ _ h => h.1) (started_tracked hosts) ops

/-- An agent reconnects before the handler of its old socket has ended. -/
def reconnect : List Op :=
  [.accept "web-1" 0, .greet 0 true, .accept "web-1" 1, .greet 1 true, .disconnect 0]

/-- The end of the old socket removes the entry of the new one, whose next heartbeat raises. -/
theorem reconnect_unlisted :
    ¬ Machine.Meets (Gateway.apply fun _ => true) (KeepsTrack fun _ => true) (started [])
        reconnect ∧
      heartbeat (fun _ => true) (Machine.run (Gateway.apply fun _ => true) (started []) reconnect)
        "web-1" (.obj []) 2 = .error .keyError := by
  constructor
  · rintro ⟨-, -, -, -, ⟨hlast, -⟩, -⟩
    obtain ⟨e, he⟩ := (hlast.listed "web-1").mpr ⟨1, ⟨"web-1", true, false⟩, rfl, rfl, rfl⟩
    cases he
  · rfl

end Gateway

end LarkPlat
