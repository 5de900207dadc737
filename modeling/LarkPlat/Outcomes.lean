import Mathlib.Logic.Basic

/-!
# Outcomes of Programs that Raise

A program on a state returns a value and the next state, or raises, and then the exception says what
stays of the state. `Ends` states what holds in the two cases, and its rules follow the program.

## Main results

* `Ends.bind`, `ends_bind`: a composed program, from what its first part leaves.
* `bind_of_ok`: a composed program whose first part is known to return.
* `Maintains.bind`: an invariant of two programs is one of their composition.
-/

namespace LarkPlat.Outcomes

variable {σ ε α β : Type}

/-- The program has returned with `Q`, or raised with `E`. -/
def Ends (r : Except ε (α × σ)) (Q : α → σ → Prop) (E : ε → Prop) : Prop :=
  match r with
  | .ok (x, s) => Q x s
  | .error e => E e

variable {r : Except ε (α × σ)} {Q Q' : α → σ → Prop} {R : β → σ → Prop} {E E' : ε → Prop}

theorem Ends.mono (h : Ends r Q E) (hQ : ∀ x s, Q x s → Q' x s) (hE : ∀ e, E e → E' e) :
    Ends r Q' E' := by
  cases r with
  | ok y => exact hQ _ _ h
  | error e => exact hE e h

theorem Ends.and {Q₁ Q₂ : α → σ → Prop} (h₁ : Ends r Q₁ E) (h₂ : Ends r Q₂ E') :
    Ends r (fun x s => Q₁ x s ∧ Q₂ x s) E := by
  cases r with
  | ok y => exact ⟨h₁, h₂⟩
  | error e => exact h₁

theorem Ends.of_ok {x : α} {s : σ} (h : Ends r Q E) (hr : r = .ok (x, s)) : Q x s := by
  subst hr
  exact h

theorem Ends.of_error {e : ε} (h : Ends r Q E) (hr : r = .error e) : E e := by
  subst hr
  exact h

theorem returns_inj {x y : α} {s t : σ} (h : r = .ok (x, s)) (h' : r = .ok (y, t)) :
    x = y ∧ s = t :=
  Prod.mk.inj (Except.ok.inj (h.symm.trans h'))

theorem Ends.exists_ok (h : Ends r Q fun _ => False) : ∃ x s, r = .ok (x, s) ∧ Q x s := by
  cases r with
  | ok y => exact ⟨y.1, y.2, rfl, h⟩
  | error e => exact h.elim

/-- **Composition.** The second part goes on from what the first one leaves. -/
theorem Ends.bind (h : Ends r Q E) {k : α × σ → Except ε (β × σ)}
    (hk : ∀ x s, Q x s → Ends (k (x, s)) R E) : Ends (r.bind k) R E := by
  cases r with
  | ok y => exact hk _ _ h
  | error e => exact h

/-- Composition, for the programs of the state monad. -/
theorem ends_bind {x : StateT σ (Except ε) α} {k : α → StateT σ (Except ε) β} {s : σ}
    (h : Ends (x s) Q E) (hk : ∀ a s', Q a s' → Ends (k a s') R E) : Ends ((x >>= k) s) R E :=
  Ends.bind h hk

theorem ends_pure {a : α} {s : σ} (h : Q a s) :
    Ends ((pure a : StateT σ (Except ε) α) s) Q E :=
  h

theorem ends_get {Q : σ → σ → Prop} {s : σ} (h : Q s s) :
    Ends ((get : StateT σ (Except ε) σ) s) Q E :=
  h

theorem ends_modify {f : σ → σ} {Q : PUnit → σ → Prop} {s : σ} (h : Q ⟨⟩ (f s)) :
    Ends ((modify f : StateT σ (Except ε) PUnit) s) Q E :=
  h

/-- A composed program whose first part is known. -/
theorem bind_of_ok {x : StateT σ (Except ε) α} {k : α → StateT σ (Except ε) β} {s s' : σ} {a : α}
    (h : x s = .ok (a, s')) : (x >>= k) s = k a s' := by
  change (x s).bind _ = _
  rw [h]
  rfl

/-- A composed program returns if its first part does and the second one goes on from there. -/
theorem bind_returns_iff {x : StateT σ (Except ε) α} {k : α → StateT σ (Except ε) β} {s : σ}
    {r : β × σ} : (x >>= k) s = .ok r ↔ ∃ a s', x s = .ok (a, s') ∧ k a s' = .ok r := by
  change (x s).bind _ = _ ↔ _
  cases x s with
  | error e => exact iff_of_false (fun h => by cases h) fun ⟨_, _, h, _⟩ => by cases h
  | ok y =>
      constructor
      · exact fun h => ⟨y.1, y.2, rfl, h⟩
      · rintro ⟨a, s', h, hk⟩
        obtain rfl := Except.ok.inj h
        exact hk

/-! ### Invariants of programs -/

/-- The program keeps `P`; where it raises, `E` holds. -/
structure Maintains (P : σ → Prop) (E : ε → Prop) (x : StateT σ (Except ε) α) : Prop where
  ends : ∀ s, P s → Ends (x s) (fun _ => P) E

variable {P : σ → Prop}

theorem Maintains.bind {x : StateT σ (Except ε) α} {k : α → StateT σ (Except ε) β}
    (hx : Maintains P E x) (hk : ∀ a, Maintains P E (k a)) : Maintains P E (x >>= k) :=
  ⟨fun s h => ends_bind (hx.ends s h) fun a s' => (hk a).ends s'⟩

theorem maintains_pure (a : α) : Maintains P E (pure a) := ⟨fun _ h => ends_pure h⟩

theorem maintains_get : Maintains P E (get : StateT σ (Except ε) σ) := ⟨fun _ h => ends_get h⟩

theorem maintains_modify {f : σ → σ} (hf : ∀ s, P s → P (f s)) :
    Maintains P E (modify f : StateT σ (Except ε) PUnit) :=
  ⟨fun s h => ends_modify (hf s h)⟩

end LarkPlat.Outcomes
