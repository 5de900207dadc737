import Mathlib.Data.List.Infix

/-!
# Python String Operations

The two string operations the services build on: `occursIn w t` is Python's `w in t`, and
`replace` is `str.replace`, which rewrites the non-overlapping occurrences of a nonempty
pattern from left to right. The pieces of a split have no separator, and a word without separators
that stands in joined pieces stands in one of them.
-/

namespace LarkPlat.Text

/-- `w in t`. -/
def occursIn (w t : String) : Bool :=
  decide (w.toList <:+: t.toList)

/-- Rewrite the occurrences of `pat` by `rep`; `skip` counts the characters of the last
match that are still to be dropped. -/
def replaceGo (pat rep : List Char) : ℕ → List Char → List Char
  | _, [] => []
  | skip + 1, _ :: cs => replaceGo pat rep skip cs
  | 0, c :: cs =>
      if pat <+: c :: cs then rep ++ replaceGo pat rep (pat.length - 1) cs
      else c :: replaceGo pat rep 0 cs

/-- `s.replace(pat, rep)` for a nonempty pattern. -/
def replace (s pat rep : String) : String :=
  String.ofList (replaceGo pat.toList rep.toList 0 s.toList)

/-! ### Pieces -/

theorem of_mem_splitOn {sep : Char} {cs piece : List Char} (h : piece ∈ cs.splitOn sep) :
    sep ∉ piece ∧ piece ⊆ cs := by
  induction cs generalizing piece with
  | nil =>
      rw [List.splitOn_nil, List.mem_singleton] at h
      rw [h]
      exact ⟨List.not_mem_nil, List.Subset.refl []⟩
  | cons c cs ih =>
      rw [List.splitOn_cons_eq_if_modifyHead] at h
      obtain ⟨first, rest, hsplit⟩ := List.exists_cons_of_ne_nil (List.splitOn_ne_nil sep cs)
      rw [hsplit] at h ih
      split_ifs at h with hc
      · rcases List.mem_cons.mp h with rfl | h
        · exact ⟨List.not_mem_nil, List.nil_subset _⟩
        · exact ⟨(ih h).1, List.subset_cons_of_subset c (ih h).2⟩
      · rcases List.mem_cons.mp h with rfl | h
        · obtain ⟨hsep, hsub⟩ := ih List.mem_cons_self
          rw [List.mem_cons, not_or]
          exact ⟨⟨fun heq => hc (beq_iff_eq.mpr heq.symm), hsep⟩, List.cons_subset_cons c hsub⟩
        · obtain ⟨hsep, hsub⟩ := ih (List.mem_cons_of_mem _ h)
          exact ⟨hsep, List.subset_cons_of_subset c hsub⟩

/-! ### Words between separators -/

section Words

variable {α : Type*} {w a b sep : List α}

/-- A word without `c` stands before `c` or after it. -/
theorem infix_append_cons_iff {c : α} (hc : c ∉ w) :
    w <:+: a ++ c :: b ↔ w <:+: a ∨ w <:+: b := by
  constructor
  · rintro ⟨s, t, heq⟩
    rcases List.append_eq_append_iff.mp heq with ⟨rest, hleft, -⟩ | ⟨rest, hleft, hright⟩
    · exact .inl ⟨s, rest, hleft.symm⟩
    · cases rest with
      | nil => exact .inl ⟨s, [], by rw [List.append_nil, hleft, List.append_nil]⟩
      | cons c' rest =>
          rw [List.cons_append, List.cons.injEq] at hright
          obtain ⟨rfl, rfl⟩ := hright
          -- the word ends after `c`, and does not begin before it
          rcases List.append_eq_append_iff.mp hleft with ⟨left, -, hw⟩ | ⟨left, -, hw⟩
          · exact absurd (hw ▸ List.mem_append_right _ List.mem_cons_self) hc
          · cases left with
            | nil =>
                rw [List.nil_append] at hw
                exact absurd (hw ▸ List.mem_cons_self) hc
            | cons c' left =>
                rw [List.cons_append, List.cons.injEq] at hw
                exact .inr ⟨left, t, by rw [hw.2]⟩
  · rintro (h | h)
    · exact h.trans (List.prefix_append _ _).isInfix
    · exact h.trans ((List.suffix_cons c b).trans (List.suffix_append _ _)).isInfix

theorem infix_sep_append_iff (hw : w ≠ []) (hsep : ∀ c ∈ sep, c ∉ w) :
    w <:+: sep ++ b ↔ w <:+: b := by
  induction sep with
  | nil => rfl
  | cons c sep ih =>
      have hcons := infix_append_cons_iff (a := []) (b := sep ++ b) (hsep c List.mem_cons_self)
      rw [List.nil_append] at hcons
      rw [List.cons_append, hcons, ih fun c' hc' => hsep c' (List.mem_cons_of_mem _ hc')]
      exact or_iff_right fun h => hw (List.eq_nil_of_infix_nil h)

/-- A word that is not empty and has nothing of a separator stands before it or after it. -/
theorem infix_append_sep_iff (hw : w ≠ []) (hne : sep ≠ []) (hsep : ∀ c ∈ sep, c ∉ w) :
    w <:+: a ++ (sep ++ b) ↔ w <:+: a ∨ w <:+: b := by
  cases sep with
  | nil => exact absurd rfl hne
  | cons c sep =>
      rw [List.cons_append, infix_append_cons_iff (hsep c List.mem_cons_self),
        infix_sep_append_iff hw fun c' hc' => hsep c' (List.mem_cons_of_mem _ hc')]

theorem infix_intercalate_iff (hw : w ≠ []) (hne : sep ≠ []) (hsep : ∀ c ∈ sep, c ∉ w) :
    ∀ texts : List (List α), w <:+: sep.intercalate texts ↔ ∃ text ∈ texts, w <:+: text := by
  intro texts
  induction texts with
  | nil =>
      rw [List.intercalate_nil]
      refine iff_of_false (fun h => hw (List.eq_nil_of_infix_nil h)) ?_
      rintro ⟨text, hmem, -⟩
      exact List.not_mem_nil hmem
  | cons text texts ih =>
      cases texts with
      | nil => rw [List.intercalate_singleton, List.exists_mem_cons_iff]; simp
      | cons next texts =>
          rw [List.intercalate_cons_cons, List.append_assoc, infix_append_sep_iff hw hne hsep, ih]
          exact (List.exists_mem_cons_iff _ text (next :: texts)).symm

end Words

end LarkPlat.Text
