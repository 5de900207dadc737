import LarkPlat.Outcomes
import Mathlib.Data.Nat.Notation
import Mathlib.Logic.Function.Basic
import Mathlib.Logic.Relation

/-!
# Programs of Statements

A program issues statements to a store, one at a time, and goes on with the answer to each. The
statements are the types `F β`, where `β` is the type of the answer. `run` executes a program
alone. `Step` executes the programs of any number of sessions, each statement of a session between
the statements of the others; a session may also be aborted wherever it stands.

A discipline says which statements a program may issue next: it gives a program a state that its
statements and their answers move, from `idle` back to `idle`. A program that obeys a discipline on
its own obeys it between the others, and what every permitted statement preserves together with
the states of all sessions, every interleaving preserves.

## Main results

* `run_bind`, `obeys_bind`: a composed program, alone and under a discipline.
* `run_ends`, `run_lockstep`: what a program keeps in one store, and what it does in two.
* `interleaving_invariant`: the invariant rule for interleavings of disciplined programs.
-/

namespace LarkPlat.Programs

open Outcomes

/-- A program that issues statements of `F` and returns a value. -/
inductive Prog (F : Type → Type) (α : Type) : Type 1 where
  | ret (x : α)
  | stmt {β : Type} (s : F β) (next : β → Prog F α)

namespace Prog

variable {F : Type → Type} {α β : Type}

/-- The program that goes on with the value of another one. -/
def bind : Prog F α → (α → Prog F β) → Prog F β
  | ret x, f => f x
  | stmt s next, f => stmt s fun b => (next b).bind f

instance : Monad (Prog F) where
  pure := ret
  bind := bind

/-- The program of one statement. -/
def issue (s : F β) : Prog F β := stmt s ret

@[simp] theorem pure_bind (x : α) (f : α → Prog F β) : (pure x : Prog F α) >>= f = f x := rfl

@[simp] theorem issue_bind (s : F α) (f : α → Prog F β) : issue s >>= f = stmt s f := rfl

theorem bind_assoc {γ : Type} (p : Prog F α) (f : α → Prog F β) (g : β → Prog F γ) :
    (p >>= f) >>= g = p >>= fun x => f x >>= g := by
  induction p with
  | ret x => rfl
  | stmt s next ih =>
      change stmt s (fun b => (next b >>= f) >>= g) = stmt s fun b => next b >>= fun x => f x >>= g
      exact congrArg (stmt s) (funext ih)

/-! ### A program alone -/

section Run

variable {σ ε : Type}

/-- The execution of a program alone; the first statement that fails ends it. -/
def run (exec : ∀ β, F β → σ → Except ε (β × σ)) : Prog F α → σ → Except ε (α × σ)
  | ret x, s => .ok (x, s)
  | stmt st next, s => (exec _ st s).bind fun r => (next r.1).run exec r.2

variable (exec : ∀ β, F β → σ → Except ε (β × σ))

@[simp] theorem run_pure (x : α) (s : σ) : (pure x : Prog F α).run exec s = .ok (x, s) := rfl

@[simp] theorem run_stmt (st : F β) (next : β → Prog F α) (s : σ) :
    (stmt st next).run exec s = (exec _ st s).bind fun r => (next r.1).run exec r.2 := rfl

/-- A composed program runs its parts one after the other. -/
theorem run_bind (p : Prog F α) (f : α → Prog F β) (s : σ) :
    (p >>= f).run exec s = (p.run exec s).bind fun r => (f r.1).run exec r.2 := by
  induction p generalizing s with
  | ret x => rfl
  | stmt st next ih =>
      change (exec _ st s).bind _ = ((exec _ st s).bind _).bind _
      cases exec _ st s with
      | error e => rfl
      | ok r => exact ih r.1 r.2

variable {exec}

/-- What every statement keeps, a program keeps, and it raises as its statements do. -/
theorem run_ends {I : σ → Prop} {E : ε → Prop}
    (hstep : ∀ {γ : Type} (st : F γ) s, I s → Ends (exec γ st s) (fun _ s' => I s') E)
    (p : Prog F α) {s : σ} (hs : I s) : Ends (p.run exec s) (fun _ s' => I s') E := by
  induction p generalizing s with
  | ret x => exact hs
  | stmt st next ih => exact (hstep st s hs).bind fun b s' hs' => ih b hs'

/-- A program that returns in one store returns in another, if its statements do. -/
theorem run_lockstep {τ δ : Type} {exec' : ∀ β, F β → τ → Except δ (β × τ)} {R : σ → τ → Prop}
    (hstep : ∀ {γ : Type} (st : F γ) s t, R s t → ∀ b s', exec γ st s = .ok (b, s') →
      ∃ t', exec' γ st t = .ok (b, t') ∧ R s' t')
    (p : Prog F α) {s s' : σ} {t : τ} (h : R s t) {x : α} (hrun : p.run exec s = .ok (x, s')) :
    ∃ t', p.run exec' t = .ok (x, t') ∧ R s' t' := by
  induction p generalizing s t with
  | ret y =>
      obtain ⟨rfl, rfl⟩ := Prod.mk.inj (Except.ok.inj hrun)
      exact ⟨t, rfl, h⟩
  | stmt st next ih =>
      rw [run_stmt] at hrun
      cases hexec : exec _ st s with
      | error e =>
          rw [hexec] at hrun
          cases hrun
      | ok r =>
          rw [hexec] at hrun
          obtain ⟨t₁, ht₁, hR⟩ := hstep st s t h r.1 r.2 hexec
          obtain ⟨t', ht', hR'⟩ := ih r.1 hR hrun
          refine ⟨t', ?_, hR'⟩
          rw [run_stmt, ht₁]
          exact ht'

end Run

end Prog

/-! ### Disciplines -/

/-- The states of programs between their statements. -/
structure Discipline (F : Type → Type) (D : Type) where
  idle : D
  /-- The statements that may be issued in a state. -/
  allowed : ∀ {β : Type}, D → F β → Prop
  /-- The state after a statement and its answer. -/
  after : ∀ {β : Type}, D → F β → β → D

variable {F : Type → Type} {D α β : Type} {T : Discipline F D}

/-- The program issues only permitted statements, whatever they answer, and ends in the state
`last`. -/
def Prog.Obeys (T : Discipline F D) (last : D) : D → Prog F α → Prop
  | d, .ret _ => d = last
  | d, .stmt s next => T.allowed d s ∧ ∀ b, (next b).Obeys T last (T.after d s b)

theorem Prog.obeys_issue {d last : D} {s : F β} (h : T.allowed d s)
    (hlast : ∀ b, T.after d s b = last) : (Prog.issue s).Obeys T last d :=
  ⟨h, hlast⟩

/-- A composed program obeys a discipline if its parts do. -/
theorem Prog.obeys_bind {d mid last : D} {p : Prog F α} {f : α → Prog F β}
    (hp : p.Obeys T mid d) (hf : ∀ x, (f x).Obeys T last mid) : (p >>= f).Obeys T last d := by
  induction p generalizing d with
  | ret x =>
      obtain rfl : d = mid := hp
      exact hf x
  | stmt s next ih => exact ⟨hp.1, fun b => ih b (hp.2 b)⟩

/-! ### Interleavings -/

/-- The store and the programs that the sessions are running. -/
structure Config (F : Type → Type) (σ : Type) where
  store : σ
  running : ℕ → Option (Prog F Unit)

/-- How a shared store executes the statements of a session, and what it does when a session
breaks off. A statement that has no outcome waits. -/
structure Server (F : Type → Type) (σ : Type) where
  exec : ∀ {β : Type}, ℕ → F β → σ → β → σ → Prop
  abort : ℕ → σ → σ

variable {σ : Type}

/-- One step of one session: it takes up a program, issues the next statement, ends the program,
or breaks off. -/
inductive Step (server : Server F σ) (starts : Prog F Unit → Prop) :
    Config F σ → Config F σ → Prop where
  | start {c : Config F σ} (i : ℕ) (p : Prog F Unit) (hidle : c.running i = none) (hp : starts p) :
      Step server starts c ⟨c.store, Function.update c.running i (some p)⟩
  | stmt {c : Config F σ} (i : ℕ) {β : Type} (s : F β) (next : β → Prog F Unit) (b : β)
      (store' : σ) (hrun : c.running i = some (.stmt s next))
      (hexec : server.exec i s c.store b store') :
      Step server starts c ⟨store', Function.update c.running i (some (next b))⟩
  | finish {c : Config F σ} (i : ℕ) (hrun : c.running i = some (.ret ())) :
      Step server starts c ⟨c.store, Function.update c.running i none⟩
  | abort {c : Config F σ} (i : ℕ) :
      Step server starts c ⟨server.abort i c.store, Function.update c.running i none⟩

/-- A session is in a state from which the rest of its program obeys the discipline; with no program
it is idle. -/
def Obeying (T : Discipline F D) (d : D) : Option (Prog F Unit) → Prop
  | none => d = T.idle
  | some p => p.Obeys T T.idle d

/-- Every session is in the state of the discipline that its program has reached. -/
def Disciplined (T : Discipline F D) (running : ℕ → Option (Prog F Unit)) (ds : ℕ → D) : Prop :=
  ∀ i, Obeying T (ds i) (running i)

theorem Disciplined.update {running : ℕ → Option (Prog F Unit)} {ds : ℕ → D}
    (h : Disciplined T running ds) (i : ℕ) (p : Option (Prog F Unit)) (d : D)
    (hp : Obeying T d p) :
    Disciplined T (Function.update running i p) (Function.update ds i d) := by
  intro j
  by_cases hj : j = i
  · subst hj
    rw [Function.update_self, Function.update_self]
    exact hp
  · rw [Function.update_of_ne hj, Function.update_of_ne hj]
    exact h j

/-- **Invariant rule.** A property of the store and of the states of all sessions, which every
permitted statement and every abort preserves, holds after every interleaving of programs that
obey the discipline. -/
theorem interleaving_invariant {server : Server F σ} {starts : Prog F Unit → Prop}
    {I : σ → (ℕ → D) → Prop} (hstarts : ∀ p, starts p → p.Obeys T T.idle T.idle)
    (hexec : ∀ i {β : Type} (s : F β) b store store' ds, T.allowed (ds i) s →
      server.exec i s store b store' → I store ds →
      I store' (Function.update ds i (T.after (ds i) s b)))
    (habort : ∀ i store ds, I store ds → I (server.abort i store) (Function.update ds i T.idle))
    {c c' : Config F σ} (hc : ∃ ds, I c.store ds ∧ Disciplined T c.running ds)
    (hsteps : Relation.ReflTransGen (Step server starts) c c') :
    ∃ ds, I c'.store ds ∧ Disciplined T c'.running ds := by
  induction hsteps with
  | refl => exact hc
  | tail _ hstep ih =>
      obtain ⟨ds, hI, hds⟩ := ih
      cases hstep with
      | start i p hidle hp =>
          have hi := hds i
          rw [hidle] at hi
          have hself : Function.update ds i T.idle = ds := by
            rw [← hi, Function.update_eq_self]
          have hds' := hds.update i (some p) T.idle (hstarts p hp)
          rw [hself] at hds'
          exact ⟨ds, hI, hds'⟩
      | stmt i s next b store' hrun hx =>
          have hi := hds i
          rw [hrun] at hi
          exact ⟨_, hexec i s b _ store' ds hi.1 hx hI, hds.update i (some (next b)) _ (hi.2 b)⟩
      | finish i hrun =>
          have hi := hds i
          rw [hrun] at hi
          have hds' := hds.update i none (ds i) hi
          rw [Function.update_eq_self] at hds'
          exact ⟨ds, hI, hds'⟩
      | abort i => exact ⟨_, habort i _ ds hI, hds.update i none T.idle rfl⟩

end LarkPlat.Programs
