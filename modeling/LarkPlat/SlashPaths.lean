import LarkPlat.Text

/-!
# Paths of Names

A path is a text whose components stand between slashes. Walking over the components from the left,
`.` and an empty component stay where they are, `..` goes back by one, and a name goes on. The names
on the way are what the path resolves to.

## Main results

* `isName_of_mem_resolve`, `resolve_slash_joined`: a path resolves to names, and the path of names
  to these.
* `joined_inj`, `joined_slash_prefix_iff`: joined names are one text, or continue one another, only
  if the lists do.
-/

namespace LarkPlat.SlashPaths

/-- The name of an entry of a directory. -/
structure IsName (comp : List Char) : Prop where
  nonempty : comp ≠ []
  dot : comp ≠ ['.']
  dots : comp ≠ ['.', '.']
  slash : '/' ∉ comp

/-- A component on the way. -/
def walk (names : List (List Char)) (comp : List Char) : List (List Char) :=
  if comp = [] ∨ comp = ['.'] then names
  else if comp = ['.', '.'] then names.dropLast
  else names ++ [comp]

/-- The names that a path resolves to. -/
def resolve (path : List Char) : List (List Char) :=
  (path.splitOn '/').foldl walk []

/-- The path of names. -/
def joined (names : List (List Char)) : List Char :=
  ['/'].intercalate names

section Resolve

variable {names : List (List Char)} {comp : List Char}

theorem isName_walk (hnames : ∀ n ∈ names, IsName n) (hcomp : '/' ∉ comp) :
    ∀ n ∈ walk names comp, IsName n := by
  intro n hn
  rw [walk] at hn
  split_ifs at hn with hstay hback
  · exact hnames n hn
  · exact hnames n (List.mem_of_mem_dropLast hn)
  · rcases List.mem_append.mp hn with hn | hn
    · exact hnames n hn
    · rw [List.mem_singleton.mp hn]
      exact ⟨fun h => hstay (.inl h), fun h => hstay (.inr h), hback, hcomp⟩

theorem isName_foldl_walk {comps : List (List Char)} (hcomps : ∀ c ∈ comps, '/' ∉ c)
    (hnames : ∀ n ∈ names, IsName n) : ∀ n ∈ comps.foldl walk names, IsName n := by
  induction comps generalizing names with
  | nil => exact hnames
  | cons comp comps ih =>
      exact ih (fun c hc => hcomps c (List.mem_cons_of_mem _ hc))
        (isName_walk hnames (hcomps comp List.mem_cons_self))

/-- A path resolves to names. -/
theorem isName_of_mem_resolve {path : List Char} : ∀ n ∈ resolve path, IsName n :=
  isName_foldl_walk (fun _ hc => (Text.of_mem_splitOn hc).1) fun _ hn => absurd hn List.not_mem_nil

end Resolve

section Joined

variable {as bs : List (List Char)}

theorem splitOn_joined (hne : as ≠ []) (ha : ∀ n ∈ as, IsName n) : (joined as).splitOn '/' = as :=
  List.splitOn_intercalate '/' (fun n hn => (ha n hn).slash) hne

theorem joined_eq_nil_iff (ha : ∀ n ∈ as, IsName n) : joined as = [] ↔ as = [] := by
  constructor
  · intro h
    by_contra hne
    have hsplit := splitOn_joined hne ha
    rw [h, List.splitOn_nil] at hsplit
    exact (ha [] (hsplit ▸ List.mem_singleton_self _)).nonempty rfl
  · rintro rfl
    rfl

theorem not_slash_prefix_joined (ha : ∀ n ∈ as, n ≠ [] ∧ '/' ∉ n) :
    ¬ ['/'].isPrefixOf (joined as) = true := by
  cases as with
  | nil => decide
  | cons n as =>
      obtain ⟨hn, hslash⟩ := ha n List.mem_cons_self
      obtain ⟨c, cs, rfl⟩ := List.exists_cons_of_ne_nil hn
      have hjoined : ∃ rest, joined ((c :: cs) :: as) = c :: rest := by
        cases as with
        | nil => exact ⟨cs, List.intercalate_singleton⟩
        | cons m as =>
            rw [joined, List.intercalate_cons_cons, List.append_assoc]
            exact ⟨_, rfl⟩
      obtain ⟨rest, hrest⟩ := hjoined
      rw [hrest]
      intro h
      have hc : '/' = c := by simpa [List.isPrefixOf] using h
      exact hslash (hc ▸ List.mem_cons_self)

/-- Different names make different paths. -/
theorem joined_inj (ha : ∀ n ∈ as, IsName n) (hb : ∀ n ∈ bs, IsName n) :
    joined as = joined bs ↔ as = bs := by
  refine ⟨fun h => ?_, fun h => by rw [h]⟩
  by_cases hne : as = []
  · rw [hne, eq_comm, ← joined_eq_nil_iff hb, ← h, joined_eq_nil_iff ha]
    exact hne
  · have hne' : bs ≠ [] := fun hb' => hne ((joined_eq_nil_iff ha).mp (h.trans (by rw [hb']; rfl)))
    rw [← splitOn_joined hne ha, h, splitOn_joined hne' hb]

theorem splitOn_slash_joined (hne : as ≠ []) (ha : ∀ n ∈ as, IsName n) :
    ('/' :: joined as).splitOn '/' = [] :: as := by
  have h := List.splitOn_append_cons_self (a := '/') [] (joined as)
  rwa [List.nil_append, List.splitOn_nil, splitOn_joined hne ha] at h

theorem walk_name {names : List (List Char)} {n : List Char} (hn : IsName n) :
    walk names n = names ++ [n] := by
  rw [walk, if_neg (not_or.mpr ⟨hn.nonempty, hn.dot⟩), if_neg hn.dots]

theorem foldl_walk_names {names : List (List Char)} (ha : ∀ n ∈ as, IsName n) :
    as.foldl walk names = names ++ as := by
  induction as generalizing names with
  | nil => exact (List.append_nil names).symm
  | cons n as ih =>
      rw [List.foldl_cons, walk_name (ha n List.mem_cons_self),
        ih fun m hm => ha m (List.mem_cons_of_mem _ hm), List.append_assoc, List.singleton_append]

/-- The absolute path of names resolves to them. -/
theorem resolve_slash_joined (ha : ∀ n ∈ as, IsName n) : resolve ('/' :: joined as) = as := by
  by_cases hne : as = []
  · rw [hne]
    decide
  · rw [resolve, splitOn_slash_joined hne ha, List.foldl_cons, foldl_walk_names ha]
    rfl

theorem joined_append (hne : as ≠ []) (hne' : bs ≠ []) :
    joined (as ++ bs) = joined as ++ '/' :: joined bs := by
  induction as with
  | nil => exact absurd rfl hne
  | cons n as ih =>
      cases as with
      | nil =>
          obtain ⟨m, bs, rfl⟩ := List.exists_cons_of_ne_nil hne'
          rw [List.singleton_append, joined, List.intercalate_cons_cons, List.append_assoc]
          simp [joined]
      | cons m as =>
          have h := ih (List.cons_ne_nil _ _)
          rw [List.cons_append, List.cons_append, joined, List.intercalate_cons_cons,
            ← List.cons_append, ← joined, h]
          simp [joined, List.intercalate_cons_cons]

theorem getLast?_joined_ne (ha : ∀ n ∈ as, IsName n) : (joined as).getLast? ≠ some '/' := by
  rcases as.eq_nil_or_concat with rfl | ⟨init, n, rfl⟩
  · exact fun h => absurd h (by decide)
  · rw [List.concat_eq_append] at ha ⊢
    have hn : IsName n := ha n (List.mem_append_right _ (List.mem_singleton_self n))
    have hend : ∃ start, joined (init ++ [n]) = start ++ n := by
      by_cases hinit : init = []
      · exact ⟨[], by rw [hinit]; exact List.intercalate_singleton⟩
      · refine ⟨joined init ++ ['/'], ?_⟩
        rw [joined_append hinit (List.cons_ne_nil _ _), joined, joined, List.intercalate_singleton,
          List.append_assoc, List.singleton_append]
    obtain ⟨start, hstart⟩ := hend
    rw [hstart, List.getLast?_append_of_ne_nil _ hn.nonempty]
    exact fun h => hn.slash (List.mem_of_getLast? h)

/-- A path continues another one after a slash exactly if its names continue those of the other. -/
theorem joined_slash_prefix_iff (hne : as ≠ []) (ha : ∀ n ∈ as, IsName n)
    (hb : ∀ n ∈ bs, IsName n) : joined as ++ ['/'] <+: joined bs ↔ as <+: bs ∧ as ≠ bs := by
  constructor
  · rintro ⟨rest, h⟩
    rw [List.append_assoc, List.singleton_append] at h
    have hne' : bs ≠ [] := by
      rintro rfl
      exact List.append_ne_nil_of_right_ne_nil _ (List.cons_ne_nil _ _) h
    have hbs : bs = as ++ rest.splitOn '/' := by
      rw [← splitOn_joined hne' hb, ← h, List.splitOn_append_cons_self, splitOn_joined hne ha]
    refine ⟨⟨_, hbs.symm⟩, fun heq => ?_⟩
    rw [← heq] at hbs
    exact List.splitOn_ne_nil '/' rest (List.self_eq_append_right.mp hbs)
  · rintro ⟨⟨rest, rfl⟩, hneq⟩
    have hrest : rest ≠ [] := fun h => hneq (by rw [h, List.append_nil])
    rw [joined_append hne hrest]
    exact ⟨joined rest, by rw [List.append_assoc, List.singleton_append]⟩

end Joined

end LarkPlat.SlashPaths
