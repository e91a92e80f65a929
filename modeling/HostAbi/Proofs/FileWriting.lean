import HostAbi.File.Tree
import Mathlib.Data.List.Basic

/-!
# What a write changes

Whether a path can be written to, and where the file then stands, depends on the path and the tree
and not on what is written (`write_eq`). Everything on the way there is a directory already, so a
write makes no directories: all other places hold what they held (`node?_put_of_ne`), and the path
reads as what was written (`read_put`).
-/

namespace HostAbi.FileTree

variable {t : FileTree} {path : String} {place q : List String} {content : List UInt8}

/-- The place of the file that a path names, if it can be opened for writing. -/
def target (t : FileTree) (path : String) : Except OsError (List String) :=
  if path = "" then .error .notFound
  else
    match (names path).reverse.dropWhile (· = "") with
    | [] => .error .isDirectory
    | name :: before => do
      let directory ← t.enter (t.start path) before.reverse
      let place := child directory name
      if (names path).getLastD "" ≠ name ∨ t.node? place = some .directory then .error .isDirectory
      else .ok place

/-- Whether a path can be opened for writing. -/
def Writable (t : FileTree) (path : String) : Prop := ∃ place, t.target path = .ok place

theorem write_eq (t : FileTree) (path : String) (content : List UInt8) :
    t.write path content = (t.target path).map (t.put · content) := by
  unfold write target
  by_cases hpath : path = ""
  · simp only [hpath, if_true]
    rfl
  simp only [hpath, if_false]
  rcases (names path).reverse.dropWhile (· = "") with _ | ⟨name, before⟩
  · rfl
  · dsimp only
    rcases t.enter (t.start path) before.reverse with e | directory
    · rfl
    · simp only [bind, Except.bind]
      split <;> rfl

theorem write_of_target (h : t.target path = .ok place) :
    t.write path content = .ok (t.put place content) := by
  rw [write_eq, h]
  rfl

theorem write_of_target_error {e : OsError} (h : t.target path = .error e) :
    t.write path content = .error e := by
  rw [write_eq, h]
  rfl

/-! ## Directories -/

theorem isDirectory_iff :
    t.isDirectory q = true ↔ q <+: t.workingDirectory ∨ ∃ f ∈ t.files, q <+: f.1 := by
  simp [isDirectory]

theorem isDirectory_of_prefix {p : List String} (hp : p <+: q) (hq : t.isDirectory q = true) :
    t.isDirectory p = true := by
  rcases isDirectory_iff.1 hq with h | ⟨f, hf, h⟩
  · exact isDirectory_iff.2 (.inl (hp.trans h))
  · exact isDirectory_iff.2 (.inr ⟨f, hf, hp.trans h⟩)

theorem isDirectory_of_node? (h : t.node? q = some .directory) : t.isDirectory q = true := by
  unfold node? at h
  split at h
  · cases h
  · by_contra hq
    simp [hq] at h

section Enter

variable {p d : List String} {name : String} {names : List String}

theorem enter_nil_eq_ok : t.enter p [] = .ok d ↔ t.node? p = some .directory ∧ p = d := by
  rcases hp : t.node? p with _ | ⟨_ | _⟩ <;> simp [enter, hp]

theorem enter_cons_eq_ok : t.enter p (name :: names) = .ok d ↔
    t.node? p = some .directory ∧ t.enter (child p name) names = .ok d := by
  rcases hp : t.node? p with _ | ⟨_ | _⟩ <;> simp [enter, hp]

theorem node?_of_enter (h : t.enter p names = .ok d) : t.node? d = some .directory := by
  induction names generalizing p with
  | nil =>
    obtain ⟨hp, rfl⟩ := enter_nil_eq_ok.1 h
    exact hp
  | cons name names ih => exact ih (enter_cons_eq_ok.1 h).2

end Enter

/-- Whether a file can stand at a place: all places on the way there are directories, and the place
itself is none. -/
structure Admits (t : FileTree) (place : List String) : Prop where
  isDirectory_of_prefix : ∀ p, p <+: place → p ≠ place → t.isDirectory p = true
  not_directory : t.node? place ≠ some .directory

theorem admits_child {directory : List String} {name : String}
    (hd : t.node? directory = some .directory)
    (hchild : t.node? (child directory name) ≠ some .directory) :
    t.Admits (child directory name) := by
  refine ⟨fun p hp hne => ?_, hchild⟩
  have hdir := isDirectory_of_node? hd
  unfold child at hp hne hchild
  split_ifs at hp hne hchild
  · exact absurd hd hchild
  · exact isDirectory_of_prefix (hp.trans directory.dropLast_prefix) hdir
  · refine isDirectory_of_prefix ?_ hdir
    rcases List.prefix_concat_iff.1 hp with rfl | hp
    · exact absurd rfl hne
    · exact hp

theorem eq_concat_of_dropWhile {names before : List String} {name : String}
    (hdrop : names.reverse.dropWhile (· = "") = name :: before) (hlast : names.getLastD "" = name) :
    names = before.reverse ++ [name] := by
  rcases List.eq_nil_or_concat' names with rfl | ⟨init, last, rfl⟩
  · simp at hdrop
  · have hname := List.head?_dropWhile_not (· = "") (init ++ [last]).reverse
    simp only [hdrop, List.head?_cons, decide_eq_false_iff_not] at hname
    obtain rfl : last = name := by simpa using hlast
    rw [List.reverse_append, List.reverse_singleton, List.singleton_append,
      List.dropWhile_cons_of_neg (by simpa using hname)] at hdrop
    rw [← (List.cons.inj hdrop).2, List.reverse_reverse]

/-- A path that can be written to leads through directories, to a place for a file. -/
theorem target_eq_ok (h : t.target path = .ok place) : path ≠ "" ∧ t.Admits place ∧
    ∃ directory, t.enter (t.start path) (names path).dropLast = .ok directory ∧
      child directory ((names path).getLastD "") = place := by
  unfold target at h
  by_cases hpath : path = ""
  · simp [hpath] at h
  simp only [hpath, if_false] at h
  rcases hdrop : (names path).reverse.dropWhile (· = "") with _ | ⟨name, before⟩ <;> rw [hdrop] at h
  · cases h
  dsimp only at h
  rcases henter : t.enter (t.start path) before.reverse with e | directory <;> rw [henter] at h
  · cases h
  simp only [bind, Except.bind] at h
  split_ifs at h with hbad
  obtain ⟨hlast, hplace⟩ := not_or.1 hbad
  obtain rfl := Except.ok.inj h
  have hlast := Decidable.not_not.1 hlast
  have hnames := eq_concat_of_dropWhile hdrop hlast
  refine ⟨hpath, admits_child (node?_of_enter henter) hplace, directory, ?_, by rw [hlast]⟩
  rw [hnames, List.dropLast_concat]
  exact henter

/-! ## Writing -/

theorem lookup_put_self : (t.put place content).files.lookup place = some content := by simp [put]

theorem lookup_put_of_ne (hq : q ≠ place) :
    (t.put place content).files.lookup q = t.files.lookup q := by
  simp only [put, List.lookup_cons, beq_eq_false_iff_ne.2 hq]
  induction t.files with
  | nil => rfl
  | cons f files ih =>
    obtain ⟨place', content'⟩ := f
    by_cases hf : place' = place
    · subst hf
      simpa [List.lookup_cons, beq_eq_false_iff_ne.2 hq] using ih
    · simp only [List.filter_cons, hf, ne_eq, not_false_eq_true, decide_true, if_true,
        List.lookup_cons, ih]

variable (hplace : t.Admits place)

include hplace

theorem isDirectory_put (hq : q ≠ place) :
    (t.put place content).isDirectory q = t.isDirectory q := by
  rw [Bool.eq_iff_iff]
  constructor
  · intro h
    rcases isDirectory_iff.1 h with h | ⟨f, hf, h⟩
    · exact isDirectory_iff.2 (.inl h)
    · rcases List.mem_cons.1 hf with rfl | hf
      · exact hplace.isDirectory_of_prefix q h hq
      · exact isDirectory_iff.2 (.inr ⟨f, List.mem_of_mem_filter hf, h⟩)
  · intro h
    rcases isDirectory_iff.1 h with h | ⟨f, hf, h⟩
    · exact isDirectory_iff.2 (.inl h)
    · by_cases hfp : f.1 = place
      · exact isDirectory_iff.2 (.inr ⟨(place, content), List.mem_cons_self, hfp ▸ h⟩)
      · exact isDirectory_iff.2 (.inr ⟨f, List.mem_cons_of_mem _ (by simp [hf, hfp]), h⟩)

/-- A file that is written changes no other place. -/
theorem node?_put_of_ne (hq : q ≠ place) : (t.put place content).node? q = t.node? q := by
  unfold node?
  rw [lookup_put_of_ne hq, isDirectory_put hplace hq]

theorem enter_put {names : List String} {p d : List String} (h : t.enter p names = .ok d) :
    (t.put place content).enter p names = .ok d := by
  have hput : ∀ {p}, t.node? p = some .directory →
      (t.put place content).node? p = some .directory := by
    intro p hp
    rw [node?_put_of_ne hplace fun h => hplace.not_directory (h ▸ hp)]
    exact hp
  induction names generalizing p with
  | nil =>
    obtain ⟨hp, hd⟩ := enter_nil_eq_ok.1 h
    exact enter_nil_eq_ok.2 ⟨hput hp, hd⟩
  | cons name names ih =>
    obtain ⟨hp, h⟩ := enter_cons_eq_ok.1 h
    exact enter_cons_eq_ok.2 ⟨hput hp, ih h⟩

omit hplace in
/-- A path that has been written to reads as what was written. -/
theorem read_put (h : t.target path = .ok place) :
    (t.put place content).read path = .ok content := by
  obtain ⟨hpath, hplace, directory, henter, hchild⟩ := target_eq_ok h
  have henter : (t.put place content).enter (t.start path) (names path).dropLast = .ok directory :=
    enter_put hplace henter
  have hnode : (t.put place content).node? place = some (.file content) := by
    unfold node?
    rw [lookup_put_self]
  have hstart : (t.put place content).start path = t.start path := rfl
  unfold read
  simp only [if_neg hpath, hstart, henter, hchild, hnode, bind, Except.bind]

end HostAbi.FileTree
