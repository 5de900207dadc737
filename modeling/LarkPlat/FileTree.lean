import Mathlib.Data.List.Infix
import Mathlib.Logic.Function.Basic

/-!
# Trees of Files

A tree has a directory or a file at some of its paths, which are the lists of names from its root
on. Directories are made from the top, and a file is written into a directory that is there. The
operating system may refuse each of these, or cut a write off.

## Main results

* `makeDirs_keeps`, `makeDirs_outside`, `makeDirs_made`: where directories are made, nothing was
  before, nothing changes elsewhere, and the path leads through directories afterwards.
* `writeBytes_keeps`, `writeBytes_stored`: a write changes its own file, which has the content if
  the write was done.
-/

namespace LarkPlat.FileTree

/-- What is at a path. -/
inductive Node
  | dir
  | file (content : List UInt8)
  deriving DecidableEq

/-- The names from the root on. -/
abbrev Path := List (List Char)

/-- What is at each path below the root. -/
abbrev Tree := Path → Option Node

/-- What becomes of a write. -/
inductive WriteAnswer
  | done
  | refused
  /-- The file keeps the first bytes. -/
  | cut (n : ℕ)
  deriving DecidableEq

/-- The operating system: whether a directory is made where nothing is, and what becomes of a write
where a file may be. -/
structure Os where
  makes : Path → Bool
  writes : Path → WriteAnswer

/-- The system that refuses nothing. -/
def Os.willing : Os := ⟨fun _ => true, fun _ => .done⟩

/-- `mkdir(parents=True, exist_ok=True)` of the names below a directory, from the top, with whether
the directories are there afterwards. -/
def makeDirs (os : Os) : Path → Path → Tree → Bool × Tree
  | _, [], t => (true, t)
  | above, n :: ns, t =>
      match t (above ++ [n]) with
      | some .dir => makeDirs os (above ++ [n]) ns t
      | some (.file _) => (false, t)
      | none =>
          if os.makes (above ++ [n]) then
            makeDirs os (above ++ [n]) ns (Function.update t (above ++ [n]) (some .dir))
          else (false, t)

/-- `write_bytes`, with whether all bytes have been written. -/
def writeBytes (os : Os) (p : Path) (content : List UInt8) (t : Tree) : Bool × Tree :=
  if t p = some .dir ∨ t p.dropLast ≠ some .dir then (false, t)
  else
    match os.writes p with
    | .done => (true, Function.update t p (some (.file content)))
    | .refused => (false, t)
    | .cut n => (false, Function.update t p (some (.file (content.take n))))

variable {os : Os} {above ns p q : Path} {t : Tree} {content : List UInt8}

/-- What is there stays where directories are made. -/
theorem makeDirs_keeps {node : Node} (h : t q = some node) :
    (makeDirs os above ns t).2 q = some node := by
  induction ns generalizing above t with
  | nil => exact h
  | cons n ns ih =>
      rw [makeDirs]
      split
      · exact ih h
      · exact h
      · next hnone =>
          split_ifs with hmakes
          · refine ih ?_
            have hne : q ≠ above ++ [n] := by
              rintro rfl
              rw [hnone] at h
              cases h
            rw [Function.update_of_ne hne]
            exact h
          · exact h

/-- Directories are made below the path where the first one is. -/
theorem makeDirs_outside {base : Path} (hbase : ∀ n ∈ ns.head?, base <+: above ++ [n])
    (hq : ¬ base <+: q) : (makeDirs os above ns t).2 q = t q := by
  induction ns generalizing above t with
  | nil => rfl
  | cons n ns ih =>
      have hfirst : base <+: above ++ [n] := hbase n rfl
      have hrest : ∀ m ∈ ns.head?, base <+: (above ++ [n]) ++ [m] := fun m _ =>
        hfirst.trans (List.prefix_append _ _)
      rw [makeDirs]
      split
      · exact ih hrest
      · rfl
      · split_ifs
        · rw [ih hrest, Function.update_of_ne]
          rintro rfl
          exact hq hfirst
        · rfl

/-- Where the directories are made, the path leads through directories. -/
theorem makeDirs_made (h : (makeDirs os above ns t).1 = true) {way : Path} (hne : way ≠ [])
    (hway : way <+: ns) : (makeDirs os above ns t).2 (above ++ way) = some .dir := by
  induction ns generalizing above t way with
  | nil => exact absurd (List.prefix_nil.mp hway) hne
  | cons n ns ih =>
      obtain ⟨way, rfl⟩ : ∃ rest, way = n :: rest := by
        rcases List.prefix_cons_iff.mp hway with rfl | ⟨rest, rfl, -⟩
        · exact absurd rfl hne
        · exact ⟨rest, rfl⟩
      have hrest : way <+: ns := (List.prefix_cons_inj n).mp hway
      rw [List.append_cons]
      -- the first name is a directory before the others are made
      have hgo {t' : Tree} (hdir : t' (above ++ [n]) = some .dir)
          (hmade : (makeDirs os (above ++ [n]) ns t').1 = true) :
          (makeDirs os (above ++ [n]) ns t').2 (above ++ [n] ++ way) = some .dir := by
        by_cases hend : way = []
        · rw [hend, List.append_nil]
          exact makeDirs_keeps hdir
        · exact ih hmade hend hrest
      rw [makeDirs] at h ⊢
      split at h
      · next hdir => exact hgo hdir h
      · cases h
      · split_ifs at h ⊢ with hmakes
        · exact hgo (Function.update_self _ _ _) h

section Writes

theorem writeBytes_refused (h : ¬ (t p = some .dir ∨ t p.dropLast ≠ some .dir))
    (ha : os.writes p = .refused) : writeBytes os p content t = (false, t) := by
  rw [writeBytes, if_neg h, ha]

theorem writeBytes_cut {n : ℕ} (h : ¬ (t p = some .dir ∨ t p.dropLast ≠ some .dir))
    (ha : os.writes p = .cut n) :
    writeBytes os p content t =
      (false, Function.update t p (some (.file (content.take n)))) := by
  rw [writeBytes, if_neg h, ha]

theorem writeBytes_done (h : ¬ (t p = some .dir ∨ t p.dropLast ≠ some .dir))
    (ha : os.writes p = .done) :
    writeBytes os p content t = (true, Function.update t p (some (.file content))) := by
  rw [writeBytes, if_neg h, ha]

/-- A write changes its own file. -/
theorem writeBytes_keeps (hq : q ≠ p) : (writeBytes os p content t).2 q = t q := by
  by_cases h : t p = some .dir ∨ t p.dropLast ≠ some .dir
  · rw [writeBytes, if_pos h]
  · cases ha : os.writes p with
    | done =>
        rw [writeBytes_done h ha]
        exact Function.update_of_ne hq _ _
    | refused => rw [writeBytes_refused h ha]
    | cut n =>
        rw [writeBytes_cut h ha]
        exact Function.update_of_ne hq _ _

/-- A write that is done has stored the content. -/
theorem writeBytes_stored (h : (writeBytes os p content t).1 = true) :
    (writeBytes os p content t).2 p = some (.file content) := by
  by_cases hplace : t p = some .dir ∨ t p.dropLast ≠ some .dir
  · rw [writeBytes, if_pos hplace] at h
    cases h
  · cases ha : os.writes p with
    | done =>
        rw [writeBytes_done hplace ha]
        exact Function.update_self _ _ _
    | refused =>
        rw [writeBytes_refused hplace ha] at h
        cases h
    | cut n =>
        rw [writeBytes_cut hplace ha] at h
        cases h

end Writes

end LarkPlat.FileTree
