import LarkPlat.Sessions
import LarkPlat.Trails

/-!
# Transition Tables under Stale Guards

A request reads a row, checks that its action is allowed from the status there, and commits the
columns that it changed. Between the two the row can move, and nothing compares what was read with
what is overwritten.

A status follows the table along a history if its committed values form a path of the table, and if
no request moves a settled status that it did not read.

## Main results

* `follow_iff`: a history follows the table exactly if each commit that would change the status
  finds it as its request read it, or where the change does no harm.
-/

namespace LarkPlat

open Machine Sessions

/-- Actions, with the statuses that each is allowed from and the one that it leads to. -/
structure TransitionTable (A T : Type) where
  allowedFrom : A → List T
  target : A → T

/-- One action leads from a status to another. -/
def TransitionTable.Edge {A T : Type} (table : TransitionTable A T) (s s' : T) : Prop :=
  ∃ a, s ∈ table.allowedFrom a ∧ s' = table.target a

/-- A request opens a session, and a session commits its next image. -/
inductive RequestOp (Q : Type)
  | request (q : Q)
  | commit (i : ℕ)

namespace RequestOp

variable {Q ρ ε T : Type} [DecidableEq T] (images : Q → ρ → Except ε (List ρ))
  (flush : ρ → ρ → ρ → ρ) (status : ρ → T) (edge : T → T → Prop) (settled : T → Prop)

/-- The store after an operation. A request that raises leaves no session. -/
def apply (st : Store ρ) : RequestOp Q → Store ρ
  | request q =>
      match images q st.db with
      | .ok pending => st.openSession pending
      | .error _ => st
  | commit i => st.commit flush i

/-- The committed values of the status, from the first. -/
def statuses (st : Store ρ) (ops : List (RequestOp Q)) : List T :=
  status st.db :: trail (apply images flush) (fun st => some (status st.db)) st ops

/-- A settled status is not moved by a request that read another. -/
def KeepsSettled (st : Store ρ) : RequestOp Q → Prop
  | request _ => True
  | commit i => ∀ base image rest, st.sessions[i]? = some ⟨base, image :: rest⟩ →
      settled (status st.db) → status base ≠ status st.db →
      status (flush base image st.db) = status st.db

/-- The commit leaves the status alone, or finds it where its request read it or wants it, or finds
one that is not settled and that the table leads on from. -/
def FindsCurrent (st : Store ρ) : RequestOp Q → Prop
  | request _ => True
  | commit i => ∀ base image rest, st.sessions[i]? = some ⟨base, image :: rest⟩ →
      status image = status base ∨ status st.db = status base ∨ status st.db = status image ∨
        (¬ settled (status st.db) ∧ edge (status st.db) (status image))

variable {images flush status edge settled}

variable (settled) in
theorem write_iff {b i d : T} (hedge : i = b ∨ edge b i) :
    ((writeBack b i d = d ∨ edge d (writeBack b i d)) ∧
        (settled d → b ≠ d → writeBack b i d = d)) ↔
      i = b ∨ d = b ∨ d = i ∨ (¬ settled d ∧ edge d i) := by
  by_cases hsame : i = b
  · rw [writeBack, if_pos hsame]
    exact iff_of_true ⟨Or.inl rfl, fun _ _ => rfl⟩ (Or.inl hsame)
  · rw [writeBack, if_neg hsame]
    constructor
    · rintro ⟨hmove | hmove, hsettled⟩
      · exact Or.inr (Or.inr (Or.inl hmove.symm))
      · by_cases hread : b = d
        · exact Or.inr (Or.inl hread.symm)
        · by_cases hd : settled d
          · exact Or.inr (Or.inr (Or.inl (hsettled hd hread).symm))
          · exact Or.inr (Or.inr (Or.inr ⟨hd, hmove⟩))
    · rintro (h | rfl | rfl | ⟨hd, hmove⟩)
      · exact absurd h hsame
      · exact ⟨Or.inr (hedge.resolve_left hsame), fun _ hne => absurd rfl hne⟩
      · exact ⟨Or.inl rfl, fun _ _ => rfl⟩
      · exact ⟨Or.inr hmove, fun h => absurd h hd⟩

omit [DecidableEq T] in
theorem respects_apply
    (hreq : ∀ q r pending, images q r = .ok pending →
      EachWrite (fun b i => status i = status b ∨ edge (status b) (status i)) r pending)
    {st : Store ρ}
    (h : st.Respects fun b i => status i = status b ∨ edge (status b) (status i))
    (op : RequestOp Q) :
    (apply images flush st op).Respects fun b i =>
      status i = status b ∨ edge (status b) (status i) := by
  cases op with
  | commit i => exact h.commit i
  | request q =>
      rw [apply]
      cases hq : images q st.db with
      | error e => exact h
      | ok pending => exact h.openSession (hreq q st.db pending hq)

theorem follow_step
    (hflush : ∀ b i d, status (flush b i d) = writeBack (status b) (status i) (status d))
    {st : Store ρ}
    (h : st.Respects fun b i => status i = status b ∨ edge (status b) (status i))
    (op : RequestOp Q) :
    ((status (apply images flush st op).db = status st.db ∨
          edge (status st.db) (status (apply images flush st op).db)) ∧
        KeepsSettled flush status settled st op) ↔
      FindsCurrent status edge settled st op := by
  cases op with
  | request q =>
      have hdb : (apply images flush st (request q)).db = st.db := by
        rw [apply]
        cases images q st.db <;> rfl
      rw [hdb]
      exact iff_of_true ⟨Or.inl rfl, trivial⟩ trivial
  | commit i =>
      by_cases hnext : ∃ base image rest, st.sessions[i]? = some ⟨base, image :: rest⟩
      · obtain ⟨base, image, rest, hi⟩ := hnext
        rw [apply, Store.commit_of_pending flush hi]
        have hwrite := write_iff settled (d := status st.db) (h _ (List.mem_of_getElem? hi)).1
        rw [← hflush] at hwrite
        constructor
        · rintro ⟨hmove, hkeep⟩ b im r hbr
          obtain ⟨rfl, hlist⟩ := Session.mk.inj (Option.some.inj (hi.symm.trans hbr))
          obtain ⟨rfl, -⟩ := List.cons.inj hlist
          exact hwrite.mp ⟨hmove, hkeep _ _ _ hi⟩
        · intro hfinds
          obtain ⟨hmove, hkeep⟩ := hwrite.mpr (hfinds _ _ _ hi)
          refine ⟨hmove, fun b im r hbr => ?_⟩
          obtain ⟨rfl, hlist⟩ := Session.mk.inj (Option.some.inj (hi.symm.trans hbr))
          obtain ⟨rfl, -⟩ := List.cons.inj hlist
          exact hkeep
      · have hidle : apply images flush st (commit i) = st :=
          (Store.commit_cases flush st i).resolve_right fun ⟨base, image, rest, hi, _⟩ =>
            hnext ⟨base, image, rest, hi⟩
        rw [hidle]
        exact iff_of_true
          ⟨Or.inl rfl, fun base image rest hi => absurd ⟨base, image, rest, hi⟩ hnext⟩
          fun base image rest hi => absurd ⟨base, image, rest, hi⟩ hnext

/-- **Histories and their table.** -/
theorem follow_iff
    (hreq : ∀ q r pending, images q r = .ok pending →
      EachWrite (fun b i => status i = status b ∨ edge (status b) (status i)) r pending)
    (hflush : ∀ b i d, status (flush b i d) = writeBack (status b) (status i) (status d))
    (r : ρ) (ops : List (RequestOp Q)) :
    ((statuses images flush status ⟨r, []⟩ ops).IsChain edge ∧
        Meets (apply images flush) (KeepsSettled flush status settled) ⟨r, []⟩ ops) ↔
      Meets (apply images flush) (FindsCurrent status edge settled) ⟨r, []⟩ ops := by
  rw [statuses, trail_isChain_iff (f := fun st : Store ρ => status st.db), meets_and_iff]
  refine meets_iff_of_invariant
    (P := fun st => st.Respects fun b i => status i = status b ∨ edge (status b) (status i))
    (fun st op h => follow_step hflush h op) (fun st op h _ => respects_apply hreq h op) ?_ ops
  intro ses hses
  cases hses

end RequestOp

end LarkPlat
