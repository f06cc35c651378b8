import MemoryBoard.Files.Tree
import MemoryBoard.Proofs.Except

set_option autoImplicit false

namespace MemoryBoard

/-- Whether no system has a path: its text has no form as a name, or that form has a zero in it. -/
def Path.Stops (path : Path) (cause : Defect) : Prop :=
  path.text.nameForm? = none ∧ cause = .unencodable ∨
    ∃ bytes, path.text.nameForm? = some bytes ∧ 0 ∈ bytes ∧ cause = .nulInPath

namespace Files

/-- Whether a file can be put where a path ends. -/
def Found.IsPlace (found : Found) (there : Place) : Prop :=
  found = .vacancy there ∨ ∃ content, found = .file there content

namespace Tree

/-- The files with another content at one place. -/
def replaced (files : List (Place × Bytes)) (place : Place) (content : Bytes) :
    List (Place × Bytes) :=
  files.map fun file => if file.1 == place then (place, content) else file

theorem replaced_cons (first : Place × Bytes) (rest : List (Place × Bytes)) (place : Place)
    (content : Bytes) : replaced (first :: rest) place content =
      (if first.1 == place then (place, content) else first) :: replaced rest place content := rfl

theorem find?_replaced (files : List (Place × Bytes)) (place other : Place) (content : Bytes) :
    (replaced files place content).find? (·.1 == other) =
      if other = place then (files.find? (·.1 == place)).map fun _ => (place, content)
      else files.find? (·.1 == other) := by
  induction files with
  | nil => by_cases same : other = place <;> simp [replaced, same]
  | cons first rest ih =>
    rw [replaced_cons]
    by_cases here : first.1 = place
    · by_cases same : other = place
      · simp [here, same]
      · have apart : ¬ place = other := fun equal => same equal.symm
        simp [here, same, apart, ih]
    · by_cases same : other = place
      · rw [same] at ih ⊢
        simp [here, ih]
      · by_cases found : first.1 = other
        · simp [found, same]
        · simp [here, same, found, ih]

theorem any_replaced (files : List (Place × Bytes)) (place : Place) (content : Bytes)
    (p : Place → Bool) : (replaced files place content).any (p ·.1) = files.any (p ·.1) := by
  induction files with
  | nil => rfl
  | cons first rest ih =>
    rw [replaced_cons, List.any_cons, List.any_cons, ih]
    by_cases here : first.1 = place
    · simp [here]
    · simp [here]

theorem content?_put (tree : Tree) (place other : Place) (content : Bytes) :
    (tree.put place content).content? other =
      if other = place then some content else tree.content? other := by
  unfold put content?
  split
  · rename_i present
    obtain ⟨file, found⟩ := Option.isSome_iff_exists.mp (List.find?_isSome.mpr
      (List.any_eq_true.mp present))
    have replacement := find?_replaced tree.files place other content
    unfold replaced at replacement
    simp only [replacement, found]
    by_cases same : other = place
    · simp [same]
    · simp [same]
  · rename_i absent
    have nowhere : tree.files.find? (·.1 == place) = none := by
      rw [List.find?_eq_none]
      intro file member here
      exact absent (List.any_eq_true.mpr ⟨file, member, here⟩)
    simp only [List.find?_append]
    by_cases same : other = place
    · simp [same, nowhere]
    · have apart : ¬ place = other := fun equal => same equal.symm
      cases found : tree.files.find? (·.1 == other) <;> simp [same, apart]

theorem hasDirectory_put {tree : Tree} {place directory : Place} {content : Bytes}
    (there : tree.hasDirectory directory = true) :
    (tree.put place content).hasDirectory directory = true := by
  unfold put hasDirectory at *
  split
  · have same := any_replaced tree.files place content directory.contains
    unfold replaced at same
    simpa only [same] using there
  · simp only [List.any_append, Bool.or_eq_true] at there ⊢
    rcases there with root | below
    · exact Or.inl root
    · exact Or.inr (Or.inl below)

/-- Where a walk ends there is the file it found, or else nothing. -/
theorem walk_end {tree : Tree} {place : Place} {names : List Bytes} {found : Found}
    (walked : tree.walk place names = .ok found) :
    (∀ there content, found = .file there content → tree.content? there = some content) ∧
      ∀ there, found = .vacancy there →
        tree.content? there = none ∧ tree.hasDirectory there = false := by
  fun_induction walk tree place names with
  | case1 place =>
    cases walked
    constructor <;> intros <;> contradiction
  | case2 place rest ih => exact ih walked
  | case3 => cases walked
  | case4 place name _ _ next content present =>
    cases walked
    constructor
    · rintro there other ⟨rfl, rfl⟩
      exact present
    · intro there impossible
      cases impossible
  | case5 => cases walked
  | case6 place name rest _ _ next _ _ ih => exact ih walked
  | case7 place name _ _ next absent noDirectory =>
    cases walked
    constructor
    · intro there other impossible
      cases impossible
    · rintro there ⟨rfl⟩
      exact ⟨absent, Bool.eq_false_iff.mpr noDirectory⟩
  | case8 => cases walked

/-- A step of a walk along a name that does not lead up. -/
theorem walk_named {tree : Tree} {place : Place} {name : Bytes} {rest : List Bytes}
    (named : name ≠ Place.upward) (short : ¬ nameLimit < name.length) :
    tree.walk place (name :: rest) =
      match tree.content? (place.child name) with
      | some content =>
        if rest = [] then .ok (.file (place.child name) content) else .error .notDirectory
      | none =>
        if tree.hasDirectory (place.child name) then tree.walk (place.child name) rest
        else if rest = [] then .ok (.vacancy (place.child name))
        else .error .notFound := by
  rw [walk]
  exact (if_neg named).trans (if_neg short)

/-- A walk that ended at a place finds the file that was put there since. -/
theorem walk_put {tree : Tree} {place there : Place} {names : List Bytes} {found : Found}
    (walked : tree.walk place names = .ok found) (ended : found.IsPlace there) (content : Bytes) :
    (tree.put there content).walk place names = .ok (.file there content) := by
  fun_induction walk tree place names with
  | case1 place =>
    cases walked
    rcases ended with impossible | ⟨_, impossible⟩ <;> cases impossible
  | case2 place rest ih =>
    rw [walk, if_pos rfl]
    exact ih walked
  | case3 => cases walked
  | case4 place name named short next old present =>
    cases walked
    have here : next = there := by
      rcases ended with impossible | ⟨_, same⟩
      · cases impossible
      · exact (Found.file.inj same).1
    rw [walk_named named short, content?_put]
    simp only [next] at here
    simp only [here, ↓reduceIte]
  | case5 => cases walked
  | case6 place name rest named short next absent isDirectory ih =>
    have later := ih walked
    have apart : next ≠ there := by
      intro same
      obtain ⟨files, vacancies⟩ := walk_end walked
      rcases ended with vacancy | ⟨old, file⟩
      · rw [← same] at vacancy
        rw [(vacancies next vacancy).2] at isDirectory
        cases isDirectory
      · rw [← same] at file
        rw [files next old file] at absent
        cases absent
    rw [walk_named named short, content?_put]
    simp only [next] at apart isDirectory absent later
    simp only [apart, ↓reduceIte, absent, hasDirectory_put isDirectory, later]
  | case7 place name named short next absent noDirectory =>
    cases walked
    have here : next = there := by
      rcases ended with same | ⟨_, impossible⟩
      · exact Found.vacancy.inj same
      · cases impossible
    rw [walk_named named short, content?_put]
    simp only [next] at here
    simp only [here, ↓reduceIte]
  | case8 => cases walked

theorem find_eq_ok {tree : Tree} {path : Path} {found : Found} :
    tree.find path = .ok found ↔
      ∃ bytes, path.text.nameForm? = some bytes ∧ 0 ∉ bytes ∧ bytes.length ≤ pathLimit ∧
        tree.walk ⟨.ofPath path, []⟩ (Place.namesOf bytes) = .ok found := by
  unfold find
  cases path.text.nameForm? with
  | none => simp
  | some bytes =>
    simp only [List.contains_iff_mem, Option.some.injEq, exists_eq_left', ← Nat.not_lt]
    by_cases nul : 0 ∈ bytes
    · simp [nul]
    by_cases long : pathLimit < bytes.length
    · simp [nul, long]
    simp only [nul, long, ↓reduceIte, not_false_eq_true, true_and]
    cases tree.walk ⟨.ofPath path, []⟩ (Place.namesOf bytes) <;> simp

/-- A path that ended at a place leads to the file that was put there since. -/
theorem find_put {tree : Tree} {path : Path} {there : Place} {found : Found}
    (reached : tree.find path = .ok found) (ended : found.IsPlace there) (content : Bytes) :
    (tree.put there content).find path = .ok (.file there content) := by
  obtain ⟨bytes, form, plain, short, walked⟩ := find_eq_ok.mp reached
  exact find_eq_ok.mpr ⟨bytes, form, plain, short, walk_put walked ended content⟩

theorem create_eq_ok {tree created : Tree} {path : Path}
    (success : tree.create path = .ok created) :
    ∃ there found, tree.find path = .ok found ∧ found.IsPlace there ∧
      created = tree.put there [] := by
  unfold create at success
  cases reached : tree.find path with
  | error error =>
    rw [reached] at success
    cases success
  | ok found =>
    rw [reached] at success
    cases found with
    | file there content =>
      cases success
      exact ⟨there, .file there content, rfl, Or.inr ⟨content, rfl⟩, rfl⟩
    | directory => cases success
    | vacancy there =>
      cases success
      exact ⟨there, .vacancy there, rfl, Or.inl rfl, rfl⟩

/-- A file that was created and written once holds what was written. -/
theorem read_append_create {tree created : Tree} {path : Path}
    (success : tree.create path = .ok created) (bytes : Bytes) :
    (created.append path bytes).read path = .ok bytes := by
  obtain ⟨there, found, reached, ended, rfl⟩ := create_eq_ok success
  have empty := find_put reached ended []
  have full := find_put empty (Or.inr ⟨[], rfl⟩) bytes
  rw [append, empty]
  simp only [List.nil_append]
  rw [read, full]
  rfl

variable {tree : Tree} {path : Path} {cause : Defect}

theorem find_eq_defect : tree.find path = .error (.defect cause) ↔ path.Stops cause := by
  unfold Path.Stops
  unfold find
  cases path.text.nameForm? with
  | none => simp [eq_comm]
  | some bytes =>
    simp only [List.contains_iff_mem, reduceCtorEq, false_and, false_or, Option.some.injEq,
      exists_eq_left']
    by_cases nul : 0 ∈ bytes
    · simp [nul, eq_comm]
    simp only [nul, ↓reduceIte, false_and, iff_false]
    intro failed
    split at failed
    · cases failed
    split at failed <;> cases failed

/-- What is done with something that was found meets no defect any more. -/
theorem bind_find_eq_defect {α : Type} {next : Found → Except FileError α}
    (plain : ∀ found, next found ≠ .error (.defect cause)) :
    tree.find path >>= next = .error (.defect cause) ↔ path.Stops cause := by
  rw [bind_eq_error, ← find_eq_defect]
  constructor
  · rintro (early | ⟨found, _, late⟩)
    · exact early
    · exact absurd late (plain found)
  · exact Or.inl

theorem read_eq_defect : tree.read path = .error (.defect cause) ↔ path.Stops cause :=
  bind_find_eq_defect fun found => by cases found <;> nofun

theorem size_eq_defect : tree.size path = .error (.defect cause) ↔ path.Stops cause :=
  bind_find_eq_defect fun found => by cases found <;> nofun

theorem create_eq_defect : tree.create path = .error (.defect cause) ↔ path.Stops cause :=
  bind_find_eq_defect fun found => by cases found <;> nofun

end Tree

end Files

end MemoryBoard
