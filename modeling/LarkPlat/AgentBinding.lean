import LarkPlat.AgentRegistry
import LarkPlat.Table

/-!
# Agents and Their Hosts

A `hello` frame binds its agent to a host that was registered before: the only unbound host with the
address or the name of the frame, provided that no host is bound to the agent yet. Heartbeats and
the ends of handlers write the row of a bound host and leave its agent.

## Main results

* `apply_agents`: an operation of the gateway leaves the agents of all hosts, or binds one host.
* `first_bind_wins`: along a run of the gateway a bound host keeps its agent, an agent that was
  bound is the agent of no other host, and a host is bound as the only match of a `hello` frame.
-/

namespace LarkPlat.Gateway

open Machine

/-! ### Bindings -/

/-- The host is bound to the agent. -/
def Bound (st : Gateway) (id : ℕ) (agentId : String) : Prop :=
  ∃ h ∈ st.hosts, h.id = id ∧ h.agentId = some agentId

/-- The host is there and bound to no agent. -/
def Unbound (st : Gateway) (id : ℕ) : Prop :=
  ∃ h ∈ st.hosts, h.id = id ∧ h.agentId = none

/-- The candidates of `_bind_host`. -/
def candidates (hostname ip : String) (hosts : List AgentHost) : List AgentHost :=
  hosts.filter fun h => decide (h.agentId = none ∧
    ((ip ≠ "" ∧ h.ip = ip) ∨ (hostname ≠ "" ∧ h.hostname = hostname)))

/-- The operation is a `hello` of the agent, and the host is the only candidate of its frame. -/
def SoleMatch (st : Gateway) (op : Op) (id : ℕ) (agentId : String) : Prop :=
  ∃ i raw now returns sent s data hostname ip host, op = .frame i raw now returns sent ∧
    st.socketAt i true = some s ∧ s.agentId = agentId ∧
    readFrame raw = .ok (some (.str "hello", data)) ∧
    strippedField data "hostname" = .ok hostname ∧ strippedField data "ip" = .ok ip ∧
    candidates hostname ip st.hosts = [host] ∧ host.id = id

/-- The operation binds the host to the agent. -/
def Binds (columns : HostColumns) (st : Gateway) (op : Op) (id : ℕ) (agentId : String) : Prop :=
  st.Unbound id ∧ (st.apply columns op).Bound id agentId

/-! ### The agents of a table -/

/-- The identifiers of the hosts are a key. -/
def KeyedHosts (hosts : List AgentHost) : Prop := (hosts.map AgentHost.id).Nodup

/-- The agent in the row of a host. -/
def agentOf (hosts : List AgentHost) (id : ℕ) : Option (Option String) :=
  (Table.find AgentHost.id hosts id).map AgentHost.agentId

variable {columns : HostColumns} {hosts hosts' : List AgentHost} {st : Gateway} {id : ℕ}
  {agentId : String}

theorem agentOf_of_mem (hn : KeyedHosts hosts) {h : AgentHost} (hmem : h ∈ hosts) :
    agentOf hosts h.id = some h.agentId := by
  rw [agentOf, Table.find_of_mem hn hmem]
  rfl

theorem agentOf_eq_some (hn : KeyedHosts hosts) {x : Option String} :
    agentOf hosts id = some x ↔ ∃ h ∈ hosts, h.id = id ∧ h.agentId = x := by
  constructor
  · intro h
    obtain ⟨row, hrow, rfl⟩ := Option.map_eq_some_iff.mp h
    exact ⟨row, Table.mem_of_find hrow, Table.key_of_find hrow, rfl⟩
  · rintro ⟨h, hmem, rfl, rfl⟩
    exact agentOf_of_mem hn hmem

theorem bound_iff (hn : KeyedHosts st.hosts) :
    st.Bound id agentId ↔ agentOf st.hosts id = some (some agentId) :=
  (agentOf_eq_some hn).symm

/-- A row that is written in the place of a host. -/
def replaced (hosts : List AgentHost) (row : AgentHost) : List AgentHost :=
  hosts.map fun h => if h.id = row.id then row else h

theorem keyed_replaced (hn : KeyedHosts hosts) (row : AgentHost) :
    KeyedHosts (replaced hosts row) := by
  have hkeys : (Table.modify AgentHost.id hosts row.id fun _ => row).map AgentHost.id =
      hosts.map AgentHost.id := Table.map_key_modify fun _ _ => rfl
  exact (congrArg List.Nodup hkeys).mpr hn

theorem agentOf_replaced {host row : AgentHost} (hmem : host ∈ hosts) (hid : row.id = host.id) :
    agentOf (replaced hosts row) = Function.update (agentOf hosts) host.id (some row.agentId) := by
  funext id
  by_cases h : id = host.id
  · subst h
    obtain ⟨old, hold⟩ :=
      Table.exists_find_of_mem_keys (List.mem_map_of_mem (f := AgentHost.id) hmem)
    have hfind : Table.find AgentHost.id (Table.modify AgentHost.id hosts host.id fun _ => row)
        host.id = some row := by
      rw [Table.find_modify_self fun _ _ => hid, hold]
      rfl
    rw [Function.update_self, agentOf, replaced, hid]
    exact congrArg (Option.map AgentHost.agentId) hfind
  · have hfind : Table.find AgentHost.id (Table.modify AgentHost.id hosts host.id fun _ => row) id =
        Table.find AgentHost.id hosts id := Table.find_modify_ne (fun _ _ => hid) h
    rw [Function.update_of_ne h, agentOf, replaced, hid]
    exact congrArg (Option.map AgentHost.agentId) hfind

theorem agentOf_replaced_same (hn : KeyedHosts hosts) {host row : AgentHost} (hmem : host ∈ hosts)
    (hid : row.id = host.id) (hagent : row.agentId = host.agentId) :
    agentOf (replaced hosts row) = agentOf hosts := by
  rw [agentOf_replaced hmem hid, hagent, ← agentOf_of_mem hn hmem, Function.update_eq_self]

/-! ### Calls -/

/-- The hosts have kept their identifiers as a key, and their agents. -/
def SameAgents (hosts hosts' : List AgentHost) : Prop :=
  KeyedHosts hosts' ∧ agentOf hosts' = agentOf hosts

theorem SameAgents.refl (hn : KeyedHosts hosts) : SameAgents hosts hosts := ⟨hn, rfl⟩

theorem SameAgents.trans {hosts'' : List AgentHost} (h : SameAgents hosts hosts')
    (h' : SameAgents hosts' hosts'') : SameAgents hosts hosts'' :=
  ⟨h'.1, h'.2.trans h.2⟩

/-- `_mark_online` writes no agent. -/
theorem markOnline_agents (hn : KeyedHosts hosts) {data : Json} {now : ℚ}
    (h : markOnline columns agentId data now hosts = .ok hosts') : SameAgents hosts hosts' := by
  rw [markOnline] at h
  cases hfind : hosts.find? fun h => decide (h.agentId = some agentId) with
  | none =>
      rw [hfind] at h
      rw [← Except.ok.inj h]
      exact .refl hn
  | some host =>
      rw [hfind] at h
      obtain ⟨osType, -, h⟩ := bind_eq_ok.mp h
      obtain ⟨osVersion, -, h⟩ := bind_eq_ok.mp h
      obtain ⟨agentVersion, -, h⟩ := bind_eq_ok.mp h
      rw [writeHost] at h
      split_ifs at h
      rw [← Except.ok.inj h]
      exact ⟨keyed_replaced hn _,
        agentOf_replaced_same hn (List.mem_of_find?_eq_some hfind) rfl rfl⟩

/-- `_mark_offline` writes no agent. -/
theorem markOffline_agents (hn : KeyedHosts hosts) (agentId : String) :
    SameAgents hosts (markOffline agentId hosts) := by
  rw [markOffline]
  cases hfind : hosts.find? fun h => decide (h.agentId = some agentId) with
  | none => exact .refl hn
  | some host =>
      have hmem : host ∈ hosts := List.mem_of_find?_eq_some hfind
      have hsame : agentOf (replaced hosts { host with status := "offline" }) = agentOf hosts :=
        agentOf_replaced_same hn hmem rfl rfl
      exact ⟨keyed_replaced hn { host with status := "offline" }, hsame⟩

/-- **`_bind_host`** leaves the hosts, or it writes the agent, which no host has, into the only
candidate. -/
theorem bindHost_cases {data : Json} (h : bindHost columns agentId data hosts = .ok hosts') :
    hosts' = hosts ∨ ∃ hostname ip host, strippedField data "hostname" = .ok hostname ∧
      strippedField data "ip" = .ok ip ∧ candidates hostname ip hosts = [host] ∧
      (∀ h ∈ hosts, h.agentId ≠ some agentId) ∧
      hosts' = replaced hosts { host with agentId := some agentId } := by
  obtain ⟨hostname, hhostname, h⟩ := bind_eq_ok.mp h
  obtain ⟨ip, hip, h⟩ := bind_eq_ok.mp h
  split_ifs at h with hempty htaken
  · exact Or.inl (Except.ok.inj h).symm
  · exact Or.inl (Except.ok.inj h).symm
  · have hfree : ∀ h ∈ hosts, h.agentId ≠ some agentId := fun h hmem hagent =>
      htaken (List.any_eq_true.mpr ⟨h, hmem, decide_eq_true hagent⟩)
    split at h
    · rename_i host hcandidates
      rw [writeHost] at h
      split_ifs at h
      exact Or.inr ⟨hostname, ip, host, hhostname, hip, hcandidates, hfree, (Except.ok.inj h).symm⟩
    · exact Or.inl (Except.ok.inj h).symm

/-- One host, which was unbound, is bound to an agent that no host had. -/
structure BindsOne (hosts hosts' : List AgentHost) (id : ℕ) (agentId : String) : Prop where
  keyed : KeyedHosts hosts'
  unbound : agentOf hosts id = some none
  free : ∀ id', agentOf hosts id' ≠ some (some agentId)
  agents : agentOf hosts' = Function.update (agentOf hosts) id (some (some agentId))

theorem BindsOne.trans {hosts'' : List AgentHost} (h : BindsOne hosts hosts' id agentId)
    (h' : SameAgents hosts' hosts'') : BindsOne hosts hosts'' id agentId :=
  ⟨h'.1, h.unbound, h.free, h'.2.trans h.agents⟩

theorem of_candidates {hostname ip : String} {host : AgentHost}
    (h : candidates hostname ip hosts = [host]) : host ∈ hosts ∧ host.agentId = none := by
  have hmem : host ∈ candidates hostname ip hosts := h ▸ List.mem_singleton_self host
  obtain ⟨hhost, hmatch⟩ := List.mem_filter.mp hmem
  exact ⟨hhost, (of_decide_eq_true hmatch).1⟩

/-- A `hello` that binds. -/
theorem bindsOne_of_candidates (hn : KeyedHosts hosts) {hostname ip : String} {host : AgentHost}
    (h : candidates hostname ip hosts = [host]) (hfree : ∀ h ∈ hosts, h.agentId ≠ some agentId) :
    BindsOne hosts (replaced hosts { host with agentId := some agentId }) host.id agentId := by
  obtain ⟨hmem, hagent⟩ := of_candidates h
  refine ⟨keyed_replaced hn _, ?_, fun id' hid' => ?_, agentOf_replaced hmem rfl⟩
  · rw [agentOf_of_mem hn hmem, hagent]
  · obtain ⟨g, hg, -, hbound⟩ := (agentOf_eq_some hn).mp hid'
    exact hfree g hg hbound

/-! ### Operations -/

theorem endHandler_agents (hn : KeyedHosts st.hosts) (i : ℕ) (s : AgentSocket) :
    SameAgents st.hosts (st.endHandler i s).hosts :=
  markOffline_agents hn s.agentId

/-- A `hello` frame leaves the agents, or binds the only candidate. -/
theorem hello_agents (columns : HostColumns) (agentId : String) (hn : KeyedHosts st.hosts)
    {data : Json} {now : ℚ} {returns sent : Bool} :
    SameAgents st.hosts
        (otherFrame columns st agentId (.str "hello") data now returns sent).1.hosts ∨
      ∃ hostname ip host, strippedField data "hostname" = .ok hostname ∧
        strippedField data "ip" = .ok ip ∧ candidates hostname ip st.hosts = [host] ∧
        BindsOne st.hosts
          (otherFrame columns st agentId (.str "hello") data now returns sent).1.hosts host.id
          agentId := by
  cases hbind : bindHost columns agentId data st.hosts with
  | error e =>
      rw [otherFrame, if_pos rfl, hbind]
      exact Or.inl (.refl hn)
  | ok bound =>
      -- What `_bind_host` did stays, whether or not `_mark_online` returns.
      have hmarked : KeyedHosts bound → SameAgents bound
          (otherFrame columns st agentId (.str "hello") data now returns sent).1.hosts := by
        intro hbound
        simp only [otherFrame, if_pos, hbind]
        cases honline : markOnline columns agentId data now bound with
        | error e => exact .refl hbound
        | ok hosts => exact markOnline_agents hbound honline
      rcases bindHost_cases hbind with rfl | ⟨hostname, ip, host, hhostname, hip, hsole, hfree, rfl⟩
      · exact Or.inl (hmarked hn)
      · have hone := bindsOne_of_candidates hn hsole hfree
        exact Or.inr ⟨hostname, ip, host, hhostname, hip, hsole, hone.trans (hmarked hone.keyed)⟩

theorem heartbeat_agents {st' : Gateway} {data : Json} {now : ℚ} (hn : KeyedHosts st.hosts)
    (hheart : heartbeat columns st agentId data now = .ok st') :
    SameAgents st.hosts st'.hosts := by
  rw [heartbeat] at hheart
  split at hheart
  · cases hheart
  · obtain ⟨hosts, honline, hheart⟩ := bind_eq_ok.mp hheart
    rw [← Except.ok.inj hheart]
    exact markOnline_agents hn honline

/-- A frame of an open socket leaves the agents, or binds the sole match of its `hello`. -/
theorem handleFrame_agents {i : ℕ} {s : AgentSocket} (columns : HostColumns) (raw : Option Json)
    (now : ℚ) (returns sent : Bool) (hn : KeyedHosts st.hosts) (hs : st.socketAt i true = some s) :
    SameAgents st.hosts (handleFrame columns st s.agentId raw now returns sent).1.hosts ∨
      ∃ id agentId, SoleMatch st (.frame i raw now returns sent) id agentId ∧
        BindsOne st.hosts (handleFrame columns st s.agentId raw now returns sent).1.hosts id
          agentId := by
  rw [handleFrame]
  cases hread : readFrame raw with
  | error e => exact Or.inl (.refl hn)
  | ok frame =>
      rcases frame with _ | ⟨mtype, data⟩
      · exact Or.inl (.refl hn)
      dsimp only
      by_cases hbeat : mtype = .str "heartbeat"
      · rw [if_pos hbeat]
        cases hheart : heartbeat columns st s.agentId data now with
        | error e => exact Or.inl (.refl hn)
        | ok st' => exact Or.inl (heartbeat_agents hn hheart)
      rw [if_neg hbeat]
      by_cases hhello : mtype = .str "hello"
      · subst hhello
        rcases hello_agents columns s.agentId hn with
          hsame | ⟨hostname, ip, host, hhostname, hip, hsole, hone⟩
        · exact Or.inl hsame
        · exact Or.inr ⟨host.id, s.agentId, ⟨i, raw, now, returns, sent, s, data,
            hostname, ip, host, rfl, hs, rfl, hread, hhostname, hip, hsole, rfl⟩, hone⟩
      · rw [otherFrame, if_neg hhello]
        split_ifs
        · exact Or.inl (.refl hn)
        · exact Or.inl (.refl hn)

/-- **An operation and the agents.** It leaves them, or binds the sole match of a `hello`. -/
theorem apply_agents (hn : KeyedHosts st.hosts) (op : Op) :
    SameAgents st.hosts (st.apply columns op).hosts ∨
      ∃ id agentId, SoleMatch st op id agentId ∧
        BindsOne st.hosts (st.apply columns op).hosts id agentId := by
  cases op with
  | accept agentId now => exact Or.inl (.refl hn)
  | greet i sent =>
      rw [apply]
      cases st.socketAt i false with
      | none => exact Or.inl (.refl hn)
      | some s => exact Or.inl (.refl hn)
  | disconnect i =>
      rw [apply]
      cases st.socketAt i true with
      | none => exact Or.inl (.refl hn)
      | some s => exact Or.inl (endHandler_agents hn i s)
  | frame i raw now returns sent =>
      rw [apply]
      cases hs : st.socketAt i true with
      | none => exact Or.inl (.refl hn)
      | some s =>
          have hframe := handleFrame_agents columns raw now returns sent hn hs
          set r := handleFrame columns st s.agentId raw now returns sent with hr
          -- The handler may end after the frame, and this writes no agent.
          have hend : KeyedHosts r.1.hosts →
              SameAgents r.1.hosts (if r.2 then r.1 else r.1.endHandler i s).hosts := by
            intro hkeyed
            split_ifs
            · exact .refl hkeyed
            · exact endHandler_agents hkeyed i s
          rcases hframe with hsame | ⟨id, agentId, hsole, hone⟩
          · exact Or.inl (hsame.trans (hend hsame.1))
          · exact Or.inr ⟨id, agentId, hsole, hone.trans (hend hone.keyed)⟩

/-! ### Runs -/

/-- The host is bound to the agent, and no other host is. -/
structure OnlyHost (st : Gateway) (id : ℕ) (agentId : String) : Prop where
  keyed : KeyedHosts st.hosts
  bound : agentOf st.hosts id = some (some agentId)
  only : ∀ id', agentOf st.hosts id' = some (some agentId) → id' = id

theorem keyed_apply (hn : KeyedHosts st.hosts) (op : Op) :
    KeyedHosts (st.apply columns op).hosts := by
  rcases apply_agents hn op with hsame | ⟨_, _, -, hone⟩
  · exact hsame.1
  · exact hone.keyed

theorem agentOf_apply (hn : KeyedHosts st.hosts) (op : Op)
    (hbound : agentOf st.hosts id = some (some agentId)) :
    agentOf (st.apply columns op).hosts id = some (some agentId) := by
  rcases apply_agents hn op with hsame | ⟨id', _, -, hone⟩
  · rw [hsame.2, hbound]
  · have hne : id ≠ id' := by
      rintro rfl
      rw [hone.unbound] at hbound
      cases hbound
    rw [hone.agents, Function.update_of_ne hne, hbound]

theorem onlyHost_apply (h : OnlyHost st id agentId) (op : Op) :
    OnlyHost (st.apply columns op) id agentId := by
  refine ⟨keyed_apply h.keyed op, agentOf_apply h.keyed op h.bound, fun id' hid' => ?_⟩
  rcases apply_agents h.keyed op with hsame | ⟨other, agentId', -, hone⟩
  · exact h.only id' (hsame.2 ▸ hid')
  · by_cases hother : id' = other
    · -- The agent that is bound now was free, so it is not the agent of `id`.
      rw [hone.agents, hother, Function.update_self] at hid'
      obtain rfl := Option.some.inj (Option.some.inj hid')
      exact absurd h.bound (hone.free id)
    · rw [hone.agents, Function.update_of_ne hother] at hid'
      exact h.only id' hid'

/-- An operation that binds a host binds it as a sole match, and to a free agent. -/
theorem binds_cases {op : Op} (hn : KeyedHosts st.hosts) (h : Binds columns st op id agentId) :
    SoleMatch st op id agentId ∧ OnlyHost (st.apply columns op) id agentId := by
  have hunbound : agentOf st.hosts id = some none := (agentOf_eq_some hn).mpr h.1
  have hbound := (bound_iff (keyed_apply hn op)).mp h.2
  rcases apply_agents hn op with hsame | ⟨id', agentId', hsole, hone⟩
  · rw [hsame.2, hunbound] at hbound
    cases hbound
  · have hid : id = id' := by
      by_contra hne
      rw [hone.agents, Function.update_of_ne hne, hunbound] at hbound
      cases hbound
    subst hid
    rw [hone.agents, Function.update_self] at hbound
    obtain rfl := Option.some.inj (Option.some.inj hbound)
    refine ⟨hsole, hone.keyed, ?_, fun other hother => ?_⟩
    · rw [hone.agents, Function.update_self]
    · by_contra hne
      rw [hone.agents, Function.update_of_ne hne] at hother
      exact hone.free other hother

/-- **The first binding wins, and bindings are injective.** Along a run of the gateway a bound host
keeps its agent; a host is bound as the sole match of a `hello` of the agent, and then no other host
is ever bound to this agent. -/
theorem first_bind_wins (columns : HostColumns) (st : Gateway)
    (hkeys : (st.hosts.map AgentHost.id).Nodup) (ops : List Op) :
    (∀ pre post id agentId, ops = pre ++ post → (run (apply columns) st pre).Bound id agentId →
        (run (apply columns) st ops).Bound id agentId) ∧
      ∀ pre op post id agentId, ops = pre ++ op :: post →
        Binds columns (run (apply columns) st pre) op id agentId →
          SoleMatch (run (apply columns) st pre) op id agentId ∧
            ∀ id', (run (apply columns) st ops).Bound id' agentId → id' = id := by
  have hkeyed : ∀ ops, KeyedHosts (run (apply columns) st ops).hosts :=
    run_invariant (P := fun st : Gateway => KeyedHosts st.hosts) (fun _ op hn => keyed_apply hn op)
      hkeys
  constructor
  · rintro pre post id agentId rfl hbound
    rw [bound_iff (hkeyed _)] at hbound ⊢
    rw [run_append]
    exact (run_invariant
      (P := fun st : Gateway => KeyedHosts st.hosts ∧ agentOf st.hosts id = some (some agentId))
      (fun _ op h => ⟨keyed_apply h.1 op, agentOf_apply h.1 op h.2⟩) ⟨hkeyed pre, hbound⟩ post).2
  · rintro pre op post id agentId rfl hbinds
    obtain ⟨hsole, honly⟩ := binds_cases (hkeyed pre) hbinds
    refine ⟨hsole, fun id' hid' => ?_⟩
    have hrun : OnlyHost (run (apply columns) st (pre ++ op :: post)) id agentId := by
      rw [run_append, run_cons]
      exact run_invariant (P := fun st : Gateway => OnlyHost st id agentId)
        (fun _ op h => onlyHost_apply h op) honly post
    exact hrun.only id' ((bound_iff hrun.keyed).mp hid')

/-- Two registered hosts, of which none is bound. -/
def twoRegistered : List AgentHost :=
  [⟨1, "web-1", "10.0.0.1", none, "offline", none, .null, .null, .null⟩,
    ⟨2, "web-2", "10.0.0.2", none, "offline", none, .null, .null, .null⟩]

/-- A `hello` that names the first host. -/
def helloFirst (i : ℕ) : Op :=
  .frame i (some (.obj [("type", .str "hello"), ("data", .obj [("hostname", .str "web-1")])])) 0
    true true

/-- An agent says hello for the first host, and another agent does so after it. -/
def twoHellos : List Op :=
  [.accept "agent-a" 0, .greet 0 true, helloFirst 0, .accept "agent-b" 0, .greet 1 true,
    helloFirst 1]

/-- The first host stays with the agent that came first, and this agent has no other host. -/
theorem first_agent_stays :
    (run (apply fun _ => true) (started twoRegistered) twoHellos).Bound 1 "agent-a" ∧
      ∀ id', (run (apply fun _ => true) (started twoRegistered) twoHellos).Bound id' "agent-a" →
        id' = 1 := by
  have hbinds : Binds (fun _ => true)
      (run (apply fun _ => true) (started twoRegistered) (twoHellos.take 2)) (helloFirst 0) 1
        "agent-a" :=
    ⟨⟨_, List.mem_cons_self, rfl, rfl⟩, ⟨_, List.mem_cons_self, rfl, rfl⟩⟩
  obtain ⟨hkeep, hfirst⟩ :=
    first_bind_wins (fun _ => true) (started twoRegistered) (by decide) twoHellos
  exact ⟨hkeep (twoHellos.take 3) (twoHellos.drop 3) 1 "agent-a" rfl hbinds.2,
    (hfirst (twoHellos.take 2) (helloFirst 0) (twoHellos.drop 3) 1 "agent-a" rfl hbinds).2⟩

end LarkPlat.Gateway
