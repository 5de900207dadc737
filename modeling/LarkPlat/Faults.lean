import Mathlib.Data.List.Basic

/-!
# Programs whose Calls may Raise

A program of type `EStateM κ σ α` makes calls named by `κ`, and an exception is the call that
raised it. What was done before a call raises stays done: the state is not rolled back. Which
calls raise is a parameter `raises : κ → Bool`, so a statement about every such function is a
statement about a failure at every point of the program.

`protect` is `try … finally`, `cleanup` is `try … except: …; raise` and `recover` is
`try … except: …`. `Ends` states what holds when a program has returned, and what when it has raised.
-/

namespace LarkPlat.Faults

variable {κ σ α β : Type}

/-- One call: it raises without effect, or acts on the state. -/
def call (raises : κ → Bool) (c : κ) (act : σ → α × σ) : EStateM κ σ α := fun s =>
  if raises c then .error c s else .ok (act s).1 (act s).2

/-- `try: x finally: fin`; an exception of `fin` replaces that of `x`. -/
def protect (x : EStateM κ σ α) (fin : EStateM κ σ Unit) : EStateM κ σ α := fun s =>
  match x.run s with
  | .ok a s₁ =>
      match fin.run s₁ with
      | .ok _ s₂ => .ok a s₂
      | .error e s₂ => .error e s₂
  | .error e s₁ =>
      match fin.run s₁ with
      | .ok _ s₂ => .error e s₂
      | .error e' s₂ => .error e' s₂

/-- `try: x except: handler; raise`. -/
def cleanup (x : EStateM κ σ α) (handler : EStateM κ σ Unit) : EStateM κ σ α := fun s =>
  match x.run s with
  | .ok a s₁ => .ok a s₁
  | .error e s₁ =>
      match handler.run s₁ with
      | .ok _ s₂ => .error e s₂
      | .error e' s₂ => .error e' s₂

/-- `try: x except: handler`. -/
def recover (x handler : EStateM κ σ Unit) : EStateM κ σ Unit := fun s =>
  match x.run s with
  | .ok a s₁ => .ok a s₁
  | .error _ s₁ => handler.run s₁

/-- The state in which a program ends, by return or by exception. -/
def finalState : EStateM.Result κ σ α → σ
  | .ok _ s => s
  | .error _ s => s

/-- The program ended by return. -/
def Returned : EStateM.Result κ σ α → Prop
  | .ok _ _ => True
  | .error _ _ => False

instance (r : EStateM.Result κ σ α) : Decidable (Returned r) :=
  match r with
  | .ok _ _ => isTrue trivial
  | .error _ _ => isFalse id

variable {raises : κ → Bool} {c : κ} {act : σ → α × σ} {x : EStateM κ σ α}
  {f : α → EStateM κ σ β} {fin : EStateM κ σ Unit} {s s₁ s₂ : σ} {a : α} {e e' : κ}

@[simp] theorem finalState_ok (a : α) (s : σ) : finalState (.ok a s : EStateM.Result κ σ α) = s :=
  rfl

@[simp] theorem finalState_error (e : κ) (s : σ) :
    finalState (.error e s : EStateM.Result κ σ α) = s := rfl

@[simp] theorem run_pure (a : α) (s : σ) : (pure a : EStateM κ σ α).run s = .ok a s := rfl

theorem run_get (s : σ) : (get : EStateM κ σ σ).run s = .ok s s := rfl

@[simp] theorem run_modify (g : σ → σ) (s : σ) :
    (modify g : EStateM κ σ PUnit).run s = .ok ⟨⟩ (g s) := rfl

theorem call_of_raises (h : raises c = true) : (call raises c act).run s = .error c s :=
  if_pos h

theorem call_of_quiet (h : raises c = false) :
    (call raises c act).run s = .ok (act s).1 (act s).2 :=
  if_neg (by simp [h])

theorem bind_of_ok (h : x.run s = .ok a s₁) : (x >>= f).run s = (f a).run s₁ := by
  rw [EStateM.run] at h
  simp only [EStateM.run, bind, EStateM.bind, h]

theorem bind_of_error (h : x.run s = .error e s₁) : (x >>= f).run s = .error e s₁ := by
  rw [EStateM.run] at h
  simp only [EStateM.run, bind, EStateM.bind, h]

theorem protect_of_ok (h : x.run s = .ok a s₁) (hfin : fin.run s₁ = .ok () s₂) :
    (protect x fin).run s = .ok a s₂ := by
  rw [EStateM.run, protect]
  simp only [h, hfin]

theorem protect_of_error (h : x.run s = .error e s₁) (hfin : fin.run s₁ = .ok () s₂) :
    (protect x fin).run s = .error e s₂ := by
  rw [EStateM.run, protect]
  simp only [h, hfin]

theorem protect_of_fin_error (hfin : fin.run (finalState (x.run s)) = .error e' s₂) :
    (protect x fin).run s = .error e' s₂ := by
  rw [EStateM.run, protect]
  cases hx : x.run s with
  | ok a s₁ =>
      rw [hx, finalState_ok] at hfin
      simp only [hfin]
  | error e s₁ =>
      rw [hx, finalState_error] at hfin
      simp only [hfin]

theorem cleanup_of_ok (h : x.run s = .ok a s₁) : (cleanup x fin).run s = .ok a s₁ := by
  rw [EStateM.run, cleanup]
  simp only [h]

theorem cleanup_of_error (h : x.run s = .error e s₁) (hfin : fin.run s₁ = .ok () s₂) :
    (cleanup x fin).run s = .error e s₂ := by
  rw [EStateM.run, cleanup]
  simp only [h, hfin]

theorem cleanup_of_handler_error (h : x.run s = .error e s₁)
    (hfin : fin.run s₁ = .error e' s₂) : (cleanup x fin).run s = .error e' s₂ := by
  rw [EStateM.run, cleanup]
  simp only [h, hfin]

theorem recover_of_ok {x : EStateM κ σ Unit} (h : x.run s = .ok () s₁) :
    (recover x fin).run s = .ok () s₁ := by
  rw [EStateM.run, recover]
  simp only [h]

theorem recover_of_error {x : EStateM κ σ Unit} (h : x.run s = .error e s₁) :
    (recover x fin).run s = fin.run s₁ := by
  rw [EStateM.run, recover]
  simp only [h]

/-! ### Invariants -/

/-- The program keeps a property of the state, however it ends. -/
def Preserves (P : σ → Prop) (x : EStateM κ σ α) : Prop :=
  ∀ s, P s → P (finalState (x.run s))

variable {P : σ → Prop}

theorem preserves_pure (a : α) : Preserves P (pure a : EStateM κ σ α) := fun _ h => h

theorem preserves_modify {g : σ → σ} (hg : ∀ s, P s → P (g s)) :
    Preserves P (modify g : EStateM κ σ PUnit) := hg

theorem preserves_call (hact : ∀ s, P s → P (act s).2) : Preserves P (call raises c act) := by
  intro s hs
  cases hc : raises c with
  | true =>
      rw [call_of_raises hc]
      exact hs
  | false =>
      rw [call_of_quiet hc]
      exact hact s hs

theorem preserves_bind (hx : Preserves P x) (hf : ∀ a, Preserves P (f a)) :
    Preserves P (x >>= f) := by
  intro s hs
  have hs₁ := hx s hs
  cases hr : x.run s with
  | ok a s₁ =>
      rw [hr] at hs₁
      rw [bind_of_ok hr]
      exact hf a s₁ hs₁
  | error e s₁ =>
      rw [hr] at hs₁
      rw [bind_of_error hr]
      exact hs₁

theorem preserves_protect (hx : Preserves P x) (hfin : Preserves P fin) :
    Preserves P (protect x fin) := by
  intro s hs
  have hs₂ := hfin _ (hx s hs)
  cases hf : fin.run (finalState (x.run s)) with
  | error e' s₂ =>
      rw [hf] at hs₂
      rw [protect_of_fin_error hf]
      exact hs₂
  | ok u s₂ =>
      rw [hf] at hs₂
      cases hr : x.run s with
      | ok a s₁ =>
          rw [hr] at hf
          rw [protect_of_ok hr hf]
          exact hs₂
      | error e s₁ =>
          rw [hr] at hf
          rw [protect_of_error hr hf]
          exact hs₂

/-! ### Endings -/

/-- The program has returned with `Q`, or raised with `E`. -/
def Ends (r : EStateM.Result κ σ α) (Q : α → σ → Prop) (E : κ → σ → Prop) : Prop :=
  match r with
  | .ok a s => Q a s
  | .error e s => E e s

section Ends

variable {r : EStateM.Result κ σ α} {Q Q' : α → σ → Prop} {R : β → σ → Prop} {E E' : κ → σ → Prop}

theorem Ends.mono (h : Ends r Q E) (hQ : ∀ a s, Q a s → Q' a s) (hE : ∀ e s, E e s → E' e s) :
    Ends r Q' E' := by
  cases r with
  | ok a s => exact hQ a s h
  | error e s => exact hE e s h

/-- **Composition.** The second part goes on from what the first one leaves. -/
theorem ends_bind (h : Ends (x.run s) Q E) (hf : ∀ a s', Q a s' → Ends ((f a).run s') R E) :
    Ends ((x >>= f).run s) R E := by
  cases hx : x.run s with
  | ok a s' =>
      rw [hx] at h
      rw [bind_of_ok hx]
      exact hf a s' h
  | error e s' =>
      rw [hx] at h
      rw [bind_of_error hx]
      exact h

end Ends

end LarkPlat.Faults
