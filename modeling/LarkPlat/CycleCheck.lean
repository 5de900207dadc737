import LarkPlat.Definition
import Mathlib.Data.Finset.Card
import Mathlib.Logic.Relation

/-!
# The Cycle Check

`_assert_acyclic` colours the keys of a definition in a depth-first search. A grey key lies on the
path that is followed, a black key is done with. An edge to a grey key closes a cycle, and where
there is a cycle some edge does: the black keys lead to black keys only, and none of them to itself.

A key is visited while it is white and is grey from then on, so that the visits are nested no deeper
than there are keys. The fuel of `assertAcyclic` allows for that.

## Main results

* `visit_searches`: what a visit of a white key leaves.
* `assertAcyclic_cases`: the check finds a cycle if there is one, and returns if there is none.
* `assertAcyclic_decides`: the same of a set of keys, in whichever order it is iterated.
-/

namespace LarkPlat

/-- A key leads to another, over one edge or more. -/
def LeadsOn (adj : String → List String) : String → String → Prop :=
  Relation.TransGen fun a b => b ∈ adj a

/-- The edges close a cycle; an edge from a key to itself does. -/
def Cyclic (edges : List (String × String)) : Prop :=
  ∃ a, Relation.TransGen (fun a b => (a, b) ∈ edges) a a

/-- The black keys are done with: they lead to black keys, and none leads to itself. -/
structure Finished (adj : String → List String) (c : Coloring) : Prop where
  closed : ∀ a, c a = .black → ∀ b ∈ adj a, c b = .black
  acyclic : ∀ a, c a = .black → ¬ LeadsOn adj a a

/-- The path stays, and so does what is black. -/
structure Darkens (c c' : Coloring) : Prop where
  gray : ∀ a, c' a = .gray ↔ c a = .gray
  black : ∀ a, c a = .black → c' a = .black

/-- The white keys. -/
def whites (keys : List String) (c : Coloring) : Finset String :=
  {k ∈ keys.toFinset | c k = .white}

/-- A search ends with a colouring, or has found a cycle. -/
def Searched (adj : String → List String) (P : Coloring → Prop) : Except PyErr Coloring → Prop
  | .ok c => P c
  | .error e => e = cycleError ∧ ∃ a, LeadsOn adj a a

section Colorings

variable {adj : String → List String} {c c' c'' : Coloring} {keys : List String} {a b : String}

theorem Darkens.refl (c : Coloring) : Darkens c c := ⟨fun _ => Iff.rfl, fun _ h => h⟩

theorem Darkens.trans (h : Darkens c c') (h' : Darkens c' c'') : Darkens c c'' where
  gray a := (h'.gray a).trans (h.gray a)
  black a hb := h'.black a (h.black a hb)

theorem Darkens.white (h : Darkens c c') (ha : c' a = .white) : c a = .white := by
  cases hc : c a with
  | white => rfl
  | gray => rw [(h.gray a).mpr hc] at ha; cases ha
  | black => rw [h.black a hc] at ha; cases ha

theorem Darkens.whites_subset (h : Darkens c c') : whites keys c' ⊆ whites keys c := by
  intro k hk
  rw [whites, Finset.mem_filter] at hk ⊢
  exact ⟨hk.1, h.white hk.2⟩

theorem card_whites_gray (ha : a ∈ keys) (hwhite : c a = .white) :
    (whites keys (Function.update c a .gray)).card < (whites keys c).card := by
  refine Finset.card_lt_card (Finset.ssubset_iff_of_subset ?_ |>.mpr ⟨a, ?_, ?_⟩)
  · intro k hk
    rw [whites, Finset.mem_filter] at hk ⊢
    obtain ⟨hkeys, hk⟩ := hk
    by_cases hka : k = a
    · exact ⟨hkeys, hka ▸ hwhite⟩
    · rw [Function.update_of_ne hka] at hk
      exact ⟨hkeys, hk⟩
  · exact Finset.mem_filter.mpr ⟨List.mem_toFinset.mpr ha, hwhite⟩
  · rw [whites, Finset.mem_filter, Function.update_self]
    rintro ⟨-, hgray⟩
    cases hgray

theorem Finished.reaches (h : Finished adj c) (ha : c a = .black)
    (hab : Relation.ReflTransGen (fun a b => b ∈ adj a) a b) : c b = .black := by
  induction hab with
  | refl => exact ha
  | tail _ hbc ih => exact h.closed _ ih _ hbc

theorem Finished.blacken (h : Finished adj c) (ha : c a = .gray)
    (hadj : ∀ b ∈ adj a, c b = .black) : Finished adj (Function.update c a .black) where
  closed k hk b hb := by
    by_cases hba : b = a
    · rw [hba, Function.update_self]
    · rw [Function.update_of_ne hba]
      by_cases hka : k = a
      · exact hadj b (hka ▸ hb)
      · rw [Function.update_of_ne hka] at hk
        exact h.closed k hk b hb
  acyclic k hk hcycle := by
    by_cases hka : k = a
    · -- The first step of the cycle goes to a black key, so that `a` would be black.
      rw [hka] at hcycle
      obtain ⟨b, hb, hback⟩ := Relation.TransGen.head'_iff.mp hcycle
      rw [h.reaches (hadj b hb) hback] at ha
      cases ha
    · rw [Function.update_of_ne hka] at hk
      exact h.acyclic k hk hcycle

end Colorings

/-! ### The search -/

section Search

variable {adj : String → List String} {keys : List String} {c : Coloring} {node : String}
  {fuel : ℕ}

/-- The body of the loop of `visit`. -/
def visitNext (adj : String → List String) (fuel : ℕ) (c : Coloring) (nxt : String) :
    Except PyErr Coloring :=
  match c nxt with
  | .gray => .error cycleError
  | .white => visit adj fuel nxt c
  | .black => .ok c

theorem visit_succ (adj : String → List String) (fuel : ℕ) (node : String) (c : Coloring) :
    visit adj (fuel + 1) node c =
      ((adj node).foldlM (visitNext adj fuel) (Function.update c node .gray)).map
        (Function.update · node .black) := by
  change (match (adj node).foldlM (visitNext adj fuel) (Function.update c node .gray) with
    | .error e => Except.error e
    | .ok c => .ok (Function.update c node .black)) = _
  cases (adj node).foldlM (visitNext adj fuel) (Function.update c node .gray) <;> rfl

/-- What a visit of a white key leaves: the key is black. -/
def Visits (adj : String → List String) (keys : List String) (fuel : ℕ) : Prop :=
  ∀ node c, node ∈ keys → c node = .white → (whites keys c).card ≤ fuel → Finished adj c →
    (∀ g, c g = .gray → LeadsOn adj g node) →
      Searched adj (fun c' => c' node = .black ∧ Darkens c c' ∧ Finished adj c')
        (visit adj fuel node c)

/-- The loop over the edges of a grey key, where the path leads to that key. -/
theorem foldlM_visitNext (hvisits : Visits adj keys fuel) {l : List String}
    (hkeys : ∀ b ∈ l, b ∈ keys) (hl : ∀ b ∈ l, b ∈ adj node) :
    ∀ c : Coloring, c node = .gray → (whites keys c).card ≤ fuel → Finished adj c →
      (∀ g, c g = .gray → g = node ∨ LeadsOn adj g node) →
        Searched adj (fun c' => (∀ b ∈ l, c' b = .black) ∧ Darkens c c' ∧ Finished adj c')
          (l.foldlM (visitNext adj fuel) c) := by
  induction l with
  | nil =>
      intro c _ _ hfinished _
      exact ⟨fun b hb => absurd hb List.not_mem_nil, Darkens.refl c, hfinished⟩
  | cons nxt l ih =>
      intro c hgray hfuel hfinished hpath
      have hedge : nxt ∈ adj node := hl nxt List.mem_cons_self
      have ih := ih (fun b hb => hkeys b (List.mem_cons_of_mem nxt hb))
        fun b hb => hl b (List.mem_cons_of_mem nxt hb)
      -- The rest of the loop, from a colouring in which `nxt` is black.
      have hrest : ∀ c₁ : Coloring, c₁ nxt = .black → Darkens c c₁ → Finished adj c₁ →
          Searched adj
            (fun c' => (∀ b ∈ nxt :: l, c' b = .black) ∧ Darkens c c' ∧ Finished adj c')
            (l.foldlM (visitNext adj fuel) c₁) := by
        intro c₁ hnxt hdark hfin₁
        have hloop := ih c₁ ((hdark.gray node).mpr hgray)
          ((Finset.card_le_card hdark.whites_subset).trans hfuel) hfin₁
          fun g hg => hpath g ((hdark.gray g).mp hg)
        cases hres : l.foldlM (visitNext adj fuel) c₁ with
        | error e => rw [hres] at hloop; exact hloop
        | ok c₂ =>
            rw [hres] at hloop
            obtain ⟨hblack, hdark₂, hfin₂⟩ := hloop
            refine ⟨fun b hb => ?_, hdark.trans hdark₂, hfin₂⟩
            rcases List.mem_cons.mp hb with rfl | hb
            · exact hdark₂.black b hnxt
            · exact hblack b hb
      rw [List.foldlM_cons, visitNext]
      cases hcolor : c nxt with
      | gray =>
          -- `nxt` lies on the path that leads to `node`, and the edge leads back to it.
          refine ⟨rfl, nxt, ?_⟩
          rcases hpath nxt hcolor with rfl | hleads
          · exact .single hedge
          · exact hleads.tail hedge
      | black => exact hrest c hcolor (Darkens.refl c) hfinished
      | white =>
          have hvisit := hvisits nxt c (hkeys nxt List.mem_cons_self) hcolor hfuel hfinished
            fun g hg => by
              rcases hpath g hg with rfl | hleads
              · exact .single hedge
              · exact hleads.tail hedge
          dsimp only
          cases hres : visit adj fuel nxt c with
          | error e => rw [hres] at hvisit; exact hvisit
          | ok c₁ =>
              rw [hres] at hvisit
              obtain ⟨hnxt, hdark, hfin₁⟩ := hvisit
              exact hrest c₁ hnxt hdark hfin₁

/-- **A visit.** From a white key the search finds a cycle or ends with the key black, if the fuel
is not less than the number of white keys. -/
theorem visit_searches (hover : ∀ a ∈ keys, ∀ b ∈ adj a, b ∈ keys) (fuel : ℕ) :
    Visits adj keys fuel := by
  induction fuel with
  | zero =>
      intro node c hnode hwhite hfuel _ _
      have hmem : node ∈ whites keys c :=
        Finset.mem_filter.mpr ⟨List.mem_toFinset.mpr hnode, hwhite⟩
      exact absurd (Finset.card_pos.mpr ⟨node, hmem⟩) (by omega)
  | succ fuel ih =>
      intro node c hnode hwhite hfuel hfinished hpath
      set g := Function.update c node .gray with hg
      have hself : g node = .gray := Function.update_self ..
      have hother : ∀ a, a ≠ node → g a = c a := fun a ha => Function.update_of_ne ha ..
      have hblack : ∀ a, g a = .black → c a = .black ∧ a ≠ node := by
        intro a ha
        have hne : a ≠ node := by
          rintro rfl
          rw [hself] at ha
          cases ha
        exact ⟨hother a hne ▸ ha, hne⟩
      have hfin : Finished adj g := by
        refine ⟨fun a ha b hb => ?_, fun a ha => hfinished.acyclic a (hblack a ha).1⟩
        have hcb := hfinished.closed a (hblack a ha).1 b hb
        rw [hother b fun heq => ?_, hcb]
        rw [heq, hwhite] at hcb
        cases hcb
      have hlt : (whites keys g).card < (whites keys c).card := card_whites_gray hnode hwhite
      have hloop := foldlM_visitNext ih (hover node hnode) (fun b hb => hb) g hself (by omega) hfin
        fun a ha => by
          by_cases hne : a = node
          · exact .inl hne
          · exact .inr (hpath a (hother a hne ▸ ha))
      rw [visit_succ]
      cases hres : (adj node).foldlM (visitNext adj fuel) g with
      | error e => rw [hres] at hloop; exact hloop
      | ok c₁ =>
          rw [hres] at hloop
          obtain ⟨hadj, hdark, hfin₁⟩ := hloop
          have hgray₁ : c₁ node = .gray := (hdark.gray node).mpr hself
          have hdarkens : Darkens c (Function.update c₁ node .black) := by
            refine ⟨fun a => ?_, fun a ha => ?_⟩
            · by_cases hne : a = node
              · rw [hne, Function.update_self, hwhite]
                exact iff_of_false (fun h => by cases h) fun h => by cases h
              · rw [Function.update_of_ne hne, hdark.gray, hother a hne]
            · by_cases hne : a = node
              · rw [hne, Function.update_self]
              · rw [Function.update_of_ne hne]
                exact hdark.black a (by rw [hother a hne, ha])
          exact ⟨Function.update_self .., hdarkens, hfin₁.blacken hgray₁ hadj⟩

end Search

/-! ### The check -/

section Check

variable {keys : List String} {edges : List (String × String)}

/-- The targets of the edges of a key. -/
def targets (edges : List (String × String)) (src : String) : List String :=
  (edges.filter fun e => decide (e.1 = src)).map (·.2)

theorem mem_targets {a b : String} : b ∈ targets edges a ↔ (a, b) ∈ edges := by
  rw [targets, List.mem_map]
  constructor
  · rintro ⟨⟨src, dst⟩, he, rfl⟩
    obtain ⟨hmem, hsrc⟩ := List.mem_filter.mp he
    obtain rfl : src = a := of_decide_eq_true hsrc
    exact hmem
  · intro h
    exact ⟨(a, b), List.mem_filter.mpr ⟨h, decide_eq_true rfl⟩, rfl⟩

theorem cyclic_iff : Cyclic edges ↔ ∃ a, LeadsOn (targets edges) a a := by
  have hrel : (fun a b => b ∈ targets edges a) = fun a b => (a, b) ∈ edges := by
    funext a b
    exact propext mem_targets
  rw [Cyclic]
  unfold LeadsOn
  rw [hrel]

/-- The body of the loop of `_assert_acyclic`. -/
def checkNext (adj : String → List String) (fuel : ℕ) (c : Coloring) (k : String) :
    Except PyErr Coloring :=
  match c k with
  | .white => visit adj fuel k c
  | _ => .ok c

theorem assertAcyclic_eq (keys : List String) (edges : List (String × String)) :
    assertAcyclic keys edges =
      (keys.foldlM (checkNext (targets edges) (keys.length + 1)) fun _ => .white).map
        fun _ => () := by
  change (match keys.foldlM (checkNext (targets edges) (keys.length + 1)) (fun _ => .white) with
    | .error e => Except.error e
    | .ok _ => .ok ()) = _
  cases keys.foldlM (checkNext (targets edges) (keys.length + 1)) fun _ => Color.white <;> rfl

theorem foldlM_checkNext {adj : String → List String} {fuel : ℕ} (hvisits : Visits adj keys fuel)
    {l : List String} (hkeys : ∀ k ∈ l, k ∈ keys) :
    ∀ c : Coloring, (∀ a, c a ≠ .gray) → (whites keys c).card ≤ fuel → Finished adj c →
      Searched adj (fun c' => (∀ k ∈ l, c' k = .black) ∧ Darkens c c' ∧ Finished adj c')
        (l.foldlM (checkNext adj fuel) c) := by
  induction l with
  | nil =>
      intro c _ _ hfinished
      exact ⟨fun k hk => absurd hk List.not_mem_nil, Darkens.refl c, hfinished⟩
  | cons k l ih =>
      intro c hgray hfuel hfinished
      have hrest : ∀ c₁ : Coloring, c₁ k = .black → Darkens c c₁ → Finished adj c₁ →
          Searched adj (fun c' => (∀ b ∈ k :: l, c' b = .black) ∧ Darkens c c' ∧ Finished adj c')
            (l.foldlM (checkNext adj fuel) c₁) := by
        intro c₁ hblack hdark hfin₁
        have hloop := ih (fun b hb => hkeys b (List.mem_cons_of_mem k hb)) c₁
          (fun a ha => hgray a ((hdark.gray a).mp ha))
          ((Finset.card_le_card hdark.whites_subset).trans hfuel) hfin₁
        cases hres : l.foldlM (checkNext adj fuel) c₁ with
        | error e => rw [hres] at hloop; exact hloop
        | ok c₂ =>
            rw [hres] at hloop
            obtain ⟨hl, hdark₂, hfin₂⟩ := hloop
            refine ⟨fun b hb => ?_, hdark.trans hdark₂, hfin₂⟩
            rcases List.mem_cons.mp hb with rfl | hb
            · exact hdark₂.black b hblack
            · exact hl b hb
      rw [List.foldlM_cons, checkNext]
      cases hcolor : c k with
      | gray => exact absurd hcolor (hgray k)
      | black => exact hrest c hcolor (Darkens.refl c) hfinished
      | white =>
          have hvisit := hvisits k c (hkeys k List.mem_cons_self) hcolor hfuel hfinished
            fun g hg => absurd hg (hgray g)
          dsimp only
          cases hres : visit adj fuel k c with
          | error e => rw [hres] at hvisit; exact hvisit
          | ok c₁ =>
              rw [hres] at hvisit
              obtain ⟨hblack, hdark, hfin₁⟩ := hvisit
              exact hrest c₁ hblack hdark hfin₁

/-- The check finds a cycle if there is one, and returns if there is none. -/
theorem assertAcyclic_cases (hover : ∀ e ∈ edges, e.1 ∈ keys ∧ e.2 ∈ keys) :
    (assertAcyclic keys edges = .error cycleError ∧ Cyclic edges) ∨
      (assertAcyclic keys edges = .ok () ∧ ¬ Cyclic edges) := by
  have hkeys : ∀ a ∈ keys, ∀ b ∈ targets edges a, b ∈ keys := fun a _ b hb =>
    (hover (a, b) (mem_targets.mp hb)).2
  have hwhites : (whites keys fun _ => .white).card ≤ keys.length + 1 :=
    (Finset.card_filter_le _ _).trans ((List.toFinset_card_le keys).trans (Nat.le_succ _))
  have hstart : Finished (targets edges) fun _ => .white :=
    ⟨fun _ h => (by cases h), fun _ h => (by cases h)⟩
  have hloop := foldlM_checkNext (visit_searches hkeys (keys.length + 1)) (fun _ hk => hk) _
    (fun a h => by cases h) hwhites hstart
  rw [assertAcyclic_eq]
  cases hres : keys.foldlM (checkNext (targets edges) (keys.length + 1)) fun _ => Color.white with
  | error e =>
      rw [hres] at hloop
      obtain ⟨rfl, hcycle⟩ := hloop
      exact .inl ⟨rfl, cyclic_iff.mpr hcycle⟩
  | ok c =>
      rw [hres] at hloop
      obtain ⟨hblack, -, hfin⟩ := hloop
      refine .inr ⟨rfl, fun hcyclic => ?_⟩
      obtain ⟨a, ha⟩ := cyclic_iff.mp hcyclic
      -- A key with an edge is one of the keys, and these are black.
      obtain ⟨b, hb, -⟩ := Relation.TransGen.head'_iff.mp ha
      exact hfin.acyclic a (hblack a (hover (a, b) (mem_targets.mp hb)).1) ha

/-- **The cycle check.** Over any set of keys and any edges between them, in whichever order the set
is iterated, the check ends: it raises exactly if the edges close a cycle, and returns otherwise. -/
theorem assertAcyclic_decides (keys : Finset String) (edges : List (String × String))
    (hover : ∀ e ∈ edges, e.1 ∈ keys ∧ e.2 ∈ keys) (order : List String)
    (horder : order.toFinset = keys) :
    (assertAcyclic order edges = .error cycleError ↔ Cyclic edges) ∧
      (assertAcyclic order edges = .ok () ↔ ¬ Cyclic edges) := by
  have hover' : ∀ e ∈ edges, e.1 ∈ order ∧ e.2 ∈ order := by
    intro e he
    rw [← List.mem_toFinset, ← List.mem_toFinset, horder]
    exact hover e he
  rcases assertAcyclic_cases hover' with ⟨hres, hcyclic⟩ | ⟨hres, hacyclic⟩
  · rw [hres]
    exact ⟨iff_of_true rfl hcyclic, iff_of_false (fun h => by cases h) fun h => h hcyclic⟩
  · rw [hres]
    exact ⟨iff_of_false (fun h => by cases h) hacyclic, iff_of_true rfl hacyclic⟩

/-- Two keys that refer to each other are a cycle, in both orders. -/
theorem mutual_keys_refused :
    assertAcyclic ["a", "b"] [("a", "b"), ("b", "a")] = .error cycleError ∧
      assertAcyclic ["b", "a"] [("a", "b"), ("b", "a")] = .error cycleError := by
  have hcyclic : Cyclic [("a", "b"), ("b", "a")] :=
    ⟨"a", .head (b := "b") (by decide) (.single (by decide))⟩
  have hover : ∀ e ∈ [("a", "b"), ("b", "a")],
      e.1 ∈ ({"a", "b"} : Finset String) ∧ e.2 ∈ ({"a", "b"} : Finset String) := by decide
  exact ⟨(assertAcyclic_decides {"a", "b"} _ hover ["a", "b"] (by decide)).1.mpr hcyclic,
    (assertAcyclic_decides {"a", "b"} _ hover ["b", "a"] (by decide)).1.mpr hcyclic⟩

end Check

end LarkPlat
