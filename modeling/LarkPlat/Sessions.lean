import LarkPlat.Machine
import Mathlib.Algebra.BigOperators.Group.List.Basic
import Mathlib.Algebra.GroupWithZero.Nat

/-!
# Sessions that Write Back Their Changes

A session reads a state, computes on its own copy, and commits by writing back what it
changed since its last commit. `Store` holds the committed state and the open sessions: a
`Session` has the image it last read or wrote, and the images it has still to commit. How a
commit merges an image into the committed state is a parameter `flush base image db`; the
attribute-wise merge is built from `writeBack`.

Nothing orders the commits of different sessions, so a later commit can overwrite what an
earlier one wrote. The rules below say when a property of the committed state survives
whatever is still open, and that this condition is exact.

## Main results

* `commit_invariant`: a property survives the commits of sessions whose remaining writes all
  respect it.
* `eachWrite_of_commits`: a property that survives all commits of a session is respected by
  every remaining write of it.
* `commits_undisturbed`: a session that commits alone leaves its last image.
* `weight_elim`: a sum over all that is open, after one entry moved on or ended.
-/

namespace LarkPlat.Sessions

/-! ### Writing back one attribute -/

section WriteBack

variable {α : Type*} [DecidableEq α] {base new cur v : α}

/-- The value of an attribute after a commit: a session writes only what it changed. -/
def writeBack (base new cur : α) : α :=
  if new = base then cur else new

@[simp] theorem writeBack_base (base new : α) : writeBack base new base = new := by
  rw [writeBack]
  split_ifs with h
  · exact h.symm
  · rfl

/-- An attribute that holds a value keeps it if the session leaves it or writes the same. -/
theorem writeBack_keeps {P : α → Prop} (h : new = base ∨ P new) (hc : P cur) :
    P (writeBack base new cur) := by
  rw [writeBack]
  split_ifs with hb
  · exact hc
  · exact h.resolve_left hb

/-- If an attribute has a property after a commit, the session left it or wrote such a
value. -/
theorem of_writeBack {P : α → Prop} (h : P (writeBack base new cur)) : new = base ∨ P new := by
  rw [writeBack] at h
  split_ifs at h with hb
  · exact Or.inl hb
  · exact Or.inr h

end WriteBack

/-! ### Weights of what is open -/

section Weight

variable {α : Type*} (f : α → ℕ) {l : List α} {i : ℕ} {a : α}

/-- The sum of a weight over all that is open. -/
def weight (l : List α) : ℕ := (l.map f).sum

theorem weight_append (l l' : List α) : weight f (l ++ l') = weight f l + weight f l' := by
  rw [weight, List.map_append, List.sum_append]
  rfl

theorem weight_set (h : l[i]? = some a) (b : α) :
    weight f (l.set i b) + f a = weight f l + f b := by
  induction l generalizing i with
  | nil => cases h
  | cons c l ih =>
      cases i with
      | zero =>
          obtain rfl := Option.some.inj h
          simp only [weight, List.set_cons_zero, List.map_cons, List.sum_cons]
          omega
      | succ i =>
          have hrest := ih h
          simp only [weight, List.set_cons_succ, List.map_cons, List.sum_cons] at hrest ⊢
          omega

theorem weight_eraseIdx (h : l[i]? = some a) :
    weight f (l.eraseIdx i) + f a = weight f l := by
  induction l generalizing i with
  | nil => cases h
  | cons c l ih =>
      cases i with
      | zero =>
          obtain rfl := Option.some.inj h
          simp only [weight, List.eraseIdx_cons_zero, List.map_cons, List.sum_cons]
          omega
      | succ i =>
          have hrest := ih h
          simp only [weight, List.eraseIdx_cons_succ, List.map_cons, List.sum_cons] at hrest ⊢
          omega

/-- The weight after one entry is replaced or removed. -/
theorem weight_elim (h : l[i]? = some a) (b : Option α) :
    weight f (b.elim (l.eraseIdx i) (l.set i)) + f a = weight f l + b.elim 0 f := by
  cases b with
  | none => exact weight_eraseIdx f h
  | some b => exact weight_set f h b

end Weight

theorem mem_elim_of_ne {α : Type*} {l : List α} {i : ℕ} {a c : α} (h : l[i]? = some a)
    (b : Option α) (hc : c ∈ l) (hne : c ≠ a) : c ∈ b.elim (l.eraseIdx i) (l.set i) := by
  obtain ⟨j, hj⟩ := List.mem_iff_getElem?.mp hc
  have hji : j ≠ i := by
    rintro rfl
    exact hne (Option.some.inj (hj.symm.trans h))
  cases b with
  | none => exact List.mem_eraseIdx_iff_getElem?.mpr ⟨j, hji, hj⟩
  | some b => exact List.mem_of_getElem? ((List.getElem?_set_ne hji.symm).trans hj)
/-! ### Sessions and their store -/

variable {σ : Type*}

/-- An open session: the image it last read or committed, and those it has still to commit. -/
structure Session (σ : Type*) where
  base : σ
  pending : List σ
  deriving DecidableEq

/-- A relation holds between the two ends of every write that is still to be made. -/
def EachWrite (P : σ → σ → Prop) : σ → List σ → Prop
  | _, [] => True
  | base, image :: rest => P base image ∧ EachWrite P image rest

theorem EachWrite.imp {P P' : σ → σ → Prop} (h : ∀ b i, P b i → P' b i) {base : σ}
    {pending : List σ} (hw : EachWrite P base pending) : EachWrite P' base pending := by
  induction pending generalizing base with
  | nil => trivial
  | cons image rest ih => exact ⟨h base image hw.1, ih hw.2⟩

theorem eachWrite_of_forall {P : σ → σ → Prop} {C : σ → Prop} (h : ∀ b i, C b → C i → P b i)
    {base : σ} {pending : List σ} (hb : C base) (hp : ∀ i ∈ pending, C i) :
    EachWrite P base pending := by
  induction pending generalizing base with
  | nil => trivial
  | cons image rest ih =>
      have himage := hp image List.mem_cons_self
      exact ⟨h base image hb himage, ih himage fun i hi => hp i (List.mem_cons_of_mem image hi)⟩

theorem eachWrite_of_pairwise {P : σ → σ → Prop} {base : σ} {pending : List σ}
    (h : (base :: pending).Pairwise P) : EachWrite P base pending := by
  induction pending generalizing base with
  | nil => trivial
  | cons image rest ih =>
      obtain ⟨hbase, hrest⟩ := List.pairwise_cons.mp h
      exact ⟨hbase image List.mem_cons_self, ih hrest⟩

/-- The committed state and the open sessions. -/
structure Store (σ : Type*) where
  db : σ
  sessions : List (Session σ)

namespace Store

variable (st : Store σ) (flush : σ → σ → σ → σ)

/-- A session opens: it reads the committed state, and has computed what it will commit. -/
def openSession (pending : List σ) : Store σ :=
  { st with sessions := st.sessions ++ [⟨st.db, pending⟩] }

/-- The next commit of session `i`. -/
def commit (i : ℕ) : Store σ :=
  match st.sessions[i]? with
  | some ⟨base, image :: rest⟩ => ⟨flush base image st.db, st.sessions.set i ⟨image, rest⟩⟩
  | _ => st

/-- Every remaining write of every open session satisfies `P`. -/
def Respects (P : σ → σ → Prop) : Prop :=
  ∀ ses ∈ st.sessions, EachWrite P ses.base ses.pending

variable {st flush} {P : σ → σ → Prop} {Q : σ → Prop} {i : ℕ}

theorem commit_cases (flush : σ → σ → σ → σ) (st : Store σ) (i : ℕ) :
    st.commit flush i = st ∨
      ∃ base image rest, st.sessions[i]? = some ⟨base, image :: rest⟩ ∧
        st.commit flush i =
          ⟨flush base image st.db, st.sessions.set i ⟨image, rest⟩⟩ := by
  rw [commit]
  split
  · rename_i base image rest h
    exact Or.inr ⟨base, image, rest, h, rfl⟩
  · exact Or.inl rfl

theorem commit_of_pending (flush : σ → σ → σ → σ) {base image : σ} {rest : List σ}
    (hi : st.sessions[i]? = some ⟨base, image :: rest⟩) :
    st.commit flush i = ⟨flush base image st.db, st.sessions.set i ⟨image, rest⟩⟩ := by
  rw [commit, hi]

theorem Respects.openSession (h : st.Respects P) {pending : List σ}
    (hp : EachWrite P st.db pending) : (st.openSession pending).Respects P := by
  intro ses hses
  rcases List.mem_append.mp hses with hses | hses
  · exact h ses hses
  · obtain rfl := List.mem_singleton.mp hses
    exact hp

theorem Respects.commit (h : st.Respects P) (i : ℕ) : (st.commit flush i).Respects P := by
  rcases commit_cases flush st i with hc | ⟨base, image, rest, hi, hc⟩ <;> rw [hc]
  · exact h
  · intro ses hses
    rcases List.mem_or_eq_of_mem_set hses with hses | rfl
    · exact h ses hses
    · exact (h _ (List.mem_of_getElem? hi)).2

/-- **Commits keep what their writes respect.** -/
theorem commit_invariant (hflush : ∀ base image db, P base image → Q db → Q (flush base image db))
    (hQ : Q st.db) (h : st.Respects P) (i : ℕ) : Q (st.commit flush i).db := by
  rcases commit_cases flush st i with hc | ⟨base, image, rest, hi, hc⟩ <;> rw [hc]
  · exact hQ
  · exact hflush base image st.db (h _ (List.mem_of_getElem? hi)).1 hQ

theorem getElem?_commit_ne {j : ℕ} (hj : j ≠ i) :
    (st.commit flush i).sessions[j]? = st.sessions[j]? := by
  rcases commit_cases flush st i with hc | ⟨base, image, rest, -, hc⟩ <;> rw [hc]
  exact List.getElem?_set_ne hj.symm

/-- After the last commit of a session, only the other sessions have writes left. -/
theorem respects_commit_last {base image : σ} (hi : st.sessions[i]? = some ⟨base, [image]⟩) :
    (st.commit flush i).Respects P ↔
      ∀ j ses, j ≠ i → st.sessions[j]? = some ses → EachWrite P ses.base ses.pending := by
  constructor
  · intro h j ses hj hjs
    exact h ses (List.mem_of_getElem? ((getElem?_commit_ne hj).trans hjs))
  · intro h ses hses
    obtain ⟨j, hj⟩ := List.mem_iff_getElem?.mp hses
    by_cases hji : j = i
    · rw [hji, commit_of_pending flush hi,
        List.getElem?_set_self (List.getElem?_eq_some_iff.mp hi).1] at hj
      obtain rfl := Option.some.inj hj
      trivial
    · exact h j ses hji ((getElem?_commit_ne hji).symm.trans hj)

/-- **What survives the commits of a session is respected by its writes.** -/
theorem eachWrite_of_commits (hback : ∀ base image db, Q (flush base image db) → P base image) :
    ∀ {pending : List σ} {st : Store σ} {base : σ},
      st.sessions[i]? = some ⟨base, pending⟩ →
      (∀ n, Q (Machine.run (commit · flush ·) st (List.replicate n i)).db) →
      EachWrite P base pending := by
  intro pending
  induction pending with
  | nil => exact fun _ _ => trivial
  | cons image rest ih =>
      intro st base hi hQ
      have hc := commit_of_pending flush hi
      refine ⟨hback base image st.db ?_, @ih (st.commit flush i) image ?_ ?_⟩
      · have h1 := hQ 1
        rw [List.replicate_one, Machine.run_cons, Machine.run_nil, hc] at h1
        exact h1
      · rw [hc]
        exact List.getElem?_set_self (List.getElem?_eq_some_iff.mp hi).1
      · intro n
        exact hQ (n + 1)

/-- **An undisturbed session.** If each write, made on a state that matches its base, leaves
a state that matches its image, then a session that commits alone leaves its last image. -/
theorem commits_undisturbed {R : σ → σ → Prop}
    (hflush : ∀ base image db, P base image → R db base → R (flush base image db) image) :
    ∀ {pending : List σ} {st : Store σ} {base : σ}, EachWrite P base pending →
      st.sessions[i]? = some ⟨base, pending⟩ → R st.db base →
      R (Machine.run (commit · flush ·) st (List.replicate pending.length i)).db
        ((base :: pending).getLast (List.cons_ne_nil _ _)) := by
  intro pending
  induction pending with
  | nil => exact fun _ _ hR => hR
  | cons image rest ih =>
      intro st base hw hi hR
      have hc := commit_of_pending flush hi
      rw [List.length_cons, List.replicate_succ, Machine.run_cons,
        List.getLast_cons (List.cons_ne_nil image rest)]
      refine ih hw.2 ?_ ?_ <;> rw [hc]
      · exact List.getElem?_set_self (List.getElem?_eq_some_iff.mp hi).1
      · exact hflush base image st.db hw.1 hR

end Store

end LarkPlat.Sessions
