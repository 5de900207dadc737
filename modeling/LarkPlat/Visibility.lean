import Mathlib.Data.Int.Notation
import Mathlib.Data.List.Basic
import Mathlib.Data.List.Dedup

/-!
# Visible Entities

Events, alerts and samples name the entity that they are about by a string: the address, the name
or the number of a host. What a user may see is a set of such strings, made of the hosts in the
groups of the user's roles. A list of them is read as a set; `none` stands for no restriction.
-/

namespace LarkPlat

/-- The columns of `asset_host` that the visibility of entities depends on. -/
structure AssetHost where
  id : ℕ
  hostname : String
  ip : String
  groupId : Option ℕ
  deriving DecidableEq

namespace AssetHost

/-- The strings that name a host. -/
def names (h : AssetHost) : List String :=
  (if h.ip = "" then [] else [h.ip]) ++ (if h.hostname = "" then [] else [h.hostname]) ++
    [toString h.id]

/-- The host is in one of the groups. -/
def inGroups (h : AssetHost) (groupIds : List ℕ) : Bool :=
  h.groupId.any fun g => decide (g ∈ groupIds)

end AssetHost

/-- `HostRepository.visible_entity_ids`. -/
def visibleEntityIds (hosts : List AssetHost) (groupIds : List ℕ) : List String :=
  if groupIds = [] then []
  else ((hosts.filter (·.inGroups groupIds)).flatMap AssetHost.names).dedup

theorem mem_visibleEntityIds {hosts : List AssetHost} {groupIds : List ℕ} {e : String} :
    e ∈ visibleEntityIds hosts groupIds ↔
      ∃ h ∈ hosts, h.inGroups groupIds = true ∧ e ∈ h.names := by
  by_cases hg : groupIds = []
  · simp [visibleEntityIds, hg, AssetHost.inGroups]
  · simp [visibleEntityIds, hg, and_assoc]

/-! ### Users -/

/-- The columns of `sys_user` that a connection depends on. -/
structure UserRow where
  id : ℕ
  deleted : Bool
  status : ℤ
  isAdmin : Bool

/-- The tables that the visibility of entities depends on. -/
structure AccessRows where
  users : List UserRow
  /-- `sys_user_role`: pairs of a user and a role. -/
  userRoles : List (ℕ × ℕ)
  /-- `role_host_group`: pairs of a role and a group. -/
  roleGroups : List (ℕ × ℕ)
  hosts : List AssetHost

namespace AccessRows

/-- The roles of a user. -/
def roleIds (db : AccessRows) (userId : ℕ) : List ℕ :=
  (db.userRoles.filter fun r => decide (r.1 = userId)).map Prod.snd

/-- `RoleRepository.visible_group_ids`. -/
def visibleGroupIds (db : AccessRows) (roleIds : List ℕ) : List ℕ :=
  (db.roleGroups.filter fun r => decide (r.1 ∈ roleIds)).map Prod.snd

/-- `_resolve_visible`. -/
def resolveVisible (db : AccessRows) (userId : ℕ) : Option (List String) :=
  match db.users.find? fun u => decide (u.id = userId) with
  | none => some []
  | some user =>
      if user.deleted = true ∨ user.status ≠ 1 then some []
      else if user.isAdmin then none
      else some (visibleEntityIds db.hosts (db.visibleGroupIds (db.roleIds userId)))

end AccessRows

end LarkPlat
