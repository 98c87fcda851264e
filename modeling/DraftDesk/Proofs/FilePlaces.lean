import DraftDesk.FileTree
import DraftDesk.Paths
import Mathlib.Data.List.Induction
import Mathlib.Tactic.ByContra
import Mathlib.Tactic.SplitIfs

/-!
# Places in a file tree

A path is followed through directories only, so where it leads is told by the directories of a tree
and not by what its files hold. `Aside` relates trees that differ at one file; `Extends` relates a
tree to one with more directories, and a path that leads somewhere still leads there.

Making directories is described by rules (`Makes`): each name is followed, and a directory is made
where there is nothing. It comes to the same in trees that differ aside from it, and does nothing
where it was done before.

A path that leads nowhere may lead somewhere once there are more directories. In a tree where
everything lies in a directory (`Grounded`), nothing is found there but what was made on the way, so
a file can be written without a change to what other paths read (`WritesTo`, `KeepsClear`).
-/

namespace DraftDesk.FileTree

variable {t u made later : FileTree} {place location next last : Location} {path name : String}
  {entry : Option FileEntry}

/-! ## Directories tell where a path leads -/

theorem isDirectory_of_follow? (h : t.follow? location name = some next) : t.isDirectory location := by
  unfold follow? at h
  split_ifs at h with directory <;> exact directory

theorem follow?_congr (h : t.isDirectory location = u.isDirectory location) (name : String) :
    t.follow? location name = u.follow? location name := by
  rw [follow?, follow?, h]

theorem locate?_congr (directories : ∀ location, t.isDirectory location = u.isDirectory location)
    (origin : t.workingDirectory = u.workingDirectory) (path : String) :
    t.locate? path = u.locate? path := by
  have follows : t.follow? = u.follow? := by
    funext location name
    exact follow?_congr (directories location) name
  rw [locate?, locate?, FileTree.origin, FileTree.origin, follows, origin]

/-! ## Trees that differ at one file -/

/-- Two trees that differ at most at one place, which is no directory in either. -/
structure Aside (place : Location) (t u : FileTree) : Prop where
  workingDirectory : t.workingDirectory = u.workingDirectory
  elsewhere : ∀ location, location ≠ place → t.holds location = u.holds location
  left : ¬ t.isDirectory place
  right : ¬ u.isDirectory place

namespace Aside

theorem refl (h : ¬ t.isDirectory place) : Aside place t t := ⟨rfl, fun _ _ => rfl, h, h⟩

theorem trans (h : Aside place t u) (further : Aside place u later) : Aside place t later where
  workingDirectory := h.workingDirectory.trans further.workingDirectory
  elsewhere location away := (h.elsewhere location away).trans (further.elsewhere location away)
  left := h.left
  right := further.right

theorem isDirectory_eq (h : Aside place t u) (location : Location) :
    t.isDirectory location = u.isDirectory location := by
  by_cases here : location = place
  · rw [here, Bool.eq_false_iff.2 h.left, Bool.eq_false_iff.2 h.right]
  · rw [isDirectory, isDirectory, h.elsewhere location here]

theorem follow?_eq (h : Aside place t u) (location : Location) (name : String) :
    t.follow? location name = u.follow? location name :=
  follow?_congr (h.isDirectory_eq location) name

theorem locate?_eq (h : Aside place t u) (path : String) : t.locate? path = u.locate? path :=
  locate?_congr h.isDirectory_eq h.workingDirectory path

/-- A path that leads elsewhere reads the same. -/
theorem read_eq (h : Aside place t u) (away : t.locate? path ≠ some place) :
    t.read path = u.read path := by
  rw [read, read, ← h.locate?_eq path]
  cases found : t.locate? path with
  | none => rfl
  | some location =>
    have apart : location ≠ place := fun here => away (here ▸ found)
    simp only [h.isDirectory_eq location, h.elsewhere location apart]

/-- Putting a file at a place, or taking it away, leaves everything else as it was. -/
theorem of_set (h : ¬ t.isDirectory place) (file : entry ≠ some .directory) :
    Aside place t (t.set place entry) where
  workingDirectory := rfl
  elsewhere location away := by rw [holds_set, if_neg away]
  left := h
  right := by simp_all [isDirectory]

/-- The same directory made in both trees. -/
theorem set_directory (h : Aside place t u) (away : next ≠ place) :
    Aside place (t.set next (some .directory)) (u.set next (some .directory)) where
  workingDirectory := h.workingDirectory
  elsewhere location apart := by
    rw [holds_set, holds_set, h.elsewhere location apart]
  left := by
    have left := h.left
    simp_all [isDirectory, away.symm]
  right := by
    have right := h.right
    simp_all [isDirectory, away.symm]

end Aside

/-! ## Trees with more directories -/

/-- A tree has what another one has, and maybe directories where that one has nothing. -/
structure Extends (t u : FileTree) : Prop where
  workingDirectory : u.workingDirectory = t.workingDirectory
  holds : ∀ location, u.holds location = t.holds location ∨
    t.holds location = none ∧ u.holds location = some .directory

namespace Extends

theorem refl (t : FileTree) : Extends t t := ⟨rfl, fun _ => .inl rfl⟩

theorem trans (h : Extends t u) (further : Extends u later) : Extends t later where
  workingDirectory := further.workingDirectory.trans h.workingDirectory
  holds location := by
    rcases further.holds location with same | ⟨free, new⟩
    · rw [same]
      exact h.holds location
    · rcases h.holds location with same | ⟨-, other⟩
      · exact .inr ⟨same ▸ free, new⟩
      · simp [free] at other

theorem isDirectory (h : Extends t u) (directory : t.isDirectory location) : u.isDirectory location := by
  rcases h.holds location with same | ⟨-, new⟩
  · rwa [FileTree.isDirectory, same]
  · simp [FileTree.isDirectory, new]

theorem follow?_eq (h : Extends t u) (directory : t.isDirectory location) (name : String) :
    u.follow? location name = t.follow? location name :=
  follow?_congr ((h.isDirectory directory).trans directory.symm) name

/-- What is no directory in the larger tree is as it was. -/
theorem holds_eq (h : Extends t u) (file : ¬ u.isDirectory location) :
    u.holds location = t.holds location := by
  rcases h.holds location with same | ⟨-, new⟩
  · exact same
  · simp [FileTree.isDirectory, new] at file

theorem of_set (free : t.holds location = none) : Extends t (t.set location (some .directory)) where
  workingDirectory := rfl
  holds other := by
    rw [holds_set]
    split
    · next here => exact .inr ⟨here ▸ free, rfl⟩
    · exact .inl rfl

end Extends

/-! ## Making directories -/

/-- A name is followed, and a directory is made where there is nothing. -/
inductive Enters (t : FileTree) (location : Location) (name : String) : FileTree → Location → Prop where
  | present {next : Location} (follows : t.follow? location name = some next)
      (directory : t.isDirectory next) : Enters t location name t next
  | made {next : Location} (follows : t.follow? location name = some next)
      (missing : ¬ t.isDirectory next) (free : t.holds next = none) :
      Enters t location name (t.set next (some .directory)) next

/-- Names are entered one after another. -/
inductive Makes : FileTree → Location → List String → FileTree → Location → Prop where
  | nil (t : FileTree) (location : Location) : Makes t location [] t location
  | cons {t next made : FileTree} {location place last : Location} {name : String}
      {names : List String} (enters : Enters t location name next place)
      (makes : Makes next place names made last) : Makes t location (name :: names) made last

theorem enterDirectory_iff :
    (enterDirectory location name).run.run t = (some next, made) ↔ Enters t location name made next := by
  have start : ∀ body : FileTree → OptionT (StateM FileTree) Location,
      (getThe FileTree >>= body).run.run t = (body t).run.run t := fun _ => rfl
  rw [enterDirectory, start]
  constructor
  · intro run
    cases follows : t.follow? location name with
    | none => rw [follows] at run; cases run
    | some place =>
      rw [follows] at run
      dsimp only at run
      by_cases directory : t.isDirectory place
      · rw [if_pos directory] at run
        cases run
        exact .present follows directory
      · rw [if_neg directory] at run
        cases free : t.holds place with
        | some other => rw [free] at run; cases run
        | none =>
          rw [free] at run
          cases run
          exact .made follows directory free
  · rintro (⟨follows, directory⟩ | ⟨follows, missing, free⟩)
    · rw [follows]
      dsimp only
      rw [if_pos directory]
      rfl
    · rw [follows]
      dsimp only
      rw [if_neg missing, free]
      rfl

private theorem run_bind {α β : Type} (x : OptionT (StateM FileTree) α)
    (f : α → OptionT (StateM FileTree) β) (t : FileTree) :
    (x >>= f).run.run t =
      match x.run.run t with
      | (some a, next) => (f a).run.run next
      | (none, next) => (none, next) := by
  rw [OptionT.run_bind, Option.elimM, StateT.run_bind]
  rcases x.run.run t with ⟨_ | a, next⟩ <;> rfl

theorem foldlM_enterDirectory_iff {names : List String} :
    (names.foldlM enterDirectory location).run.run t = (some last, made) ↔
      Makes t location names made last := by
  induction names generalizing t location with
  | nil =>
    constructor
    · intro run
      cases run
      exact .nil _ _
    · rintro ⟨⟩
      rfl
  | cons name names ih =>
    rw [List.foldlM_cons, run_bind]
    rcases entered : (enterDirectory location name).run.run t with ⟨_ | place, next⟩
    · constructor
      · intro run
        cases run
      · rintro (_ | ⟨enters, -⟩)
        rw [enterDirectory_iff.2 enters] at entered
        cases entered
    · have enters := enterDirectory_iff.1 entered
      constructor
      · intro run
        exact .cons enters (ih.1 run)
      · rintro (_ | ⟨other, makes⟩)
        rw [enterDirectory_iff.2 other] at entered
        cases entered
        exact ih.2 makes

/-- When making a directory succeeds, and what comes of it. -/
theorem makeDirectory_iff :
    FileTree.storage.makeDirectory path t = (true, made) ↔
      path = "" ∧ made = t ∨
        path ≠ "" ∧ isPath path ∧ ∃ last, Makes t (t.origin path) (names path) made last := by
  by_cases empty : path = ""
  · have nothing : FileTree.storage.makeDirectory path t = (true, t) := by rw [empty]; rfl
    rw [nothing]
    constructor
    · rintro ⟨⟩
      exact .inl ⟨empty, rfl⟩
    · rintro (⟨-, rfl⟩ | ⟨some, -⟩)
      · rfl
      · exact absurd empty some
  by_cases legal : isPath path
  · have unfolded : FileTree.storage.makeDirectory path t =
        ((((names path).foldlM enterDirectory (t.origin path)).run.run t).1.isSome,
          (((names path).foldlM enterDirectory (t.origin path)).run.run t).2) := by
      simp only [FileTree.storage, makeDirectory, if_neg empty, legal, Bool.not_true]
      change StateT.run (((fun _ => PUnit.unit) <$>
        (names path).foldlM enterDirectory (t.origin path)).run >>= fun made => pure made.isSome) t = _
      rw [StateT.run_bind, OptionT.run_map, StateT.run_map]
      rcases ((names path).foldlM enterDirectory (t.origin path)).run.run t with ⟨_ | last, next⟩ <;> rfl
    rw [unfolded, Prod.mk.injEq, Option.isSome_iff_exists]
    constructor
    · rintro ⟨⟨last, found⟩, rfl⟩
      exact .inr ⟨empty, legal, last, foldlM_enterDirectory_iff.1 (Prod.ext found rfl)⟩
    · rintro (⟨nothing, -⟩ | ⟨-, -, last, makes⟩)
      · exact absurd nothing empty
      · rw [foldlM_enterDirectory_iff.2 makes]
        exact ⟨⟨last, rfl⟩, rfl⟩
  · have refused : FileTree.storage.makeDirectory path t = (false, t) := by
      simp only [FileTree.storage, makeDirectory, if_neg empty, legal]
      rfl
    rw [refused]
    constructor
    · rintro ⟨⟩
    · rintro (⟨nothing, -⟩ | ⟨-, other, -⟩)
      · exact absurd nothing empty
      · exact absurd other legal

/-! ### What comes of it -/

theorem Enters.extends (h : Enters t location name u next) : Extends t u := by
  cases h with
  | present => exact .refl t
  | made _ _ free => exact .of_set free

theorem Enters.follow?_eq (h : Enters t location name u next) : t.follow? location name = some next := by
  cases h <;> assumption

theorem Enters.isDirectory (h : Enters t location name u next) : u.isDirectory next := by
  cases h with
  | present _ directory => exact directory
  | made => simp [FileTree.isDirectory]

variable {steps : List String}

theorem Makes.extends (h : Makes t location steps made last) : Extends t made := by
  induction h with
  | nil t location => exact .refl t
  | cons enters _ ih => exact enters.extends.trans ih

/-- Directories that are there already are only followed. -/
theorem Makes.again (h : Makes t location steps made last) (more : Extends made later) :
    Makes later location steps later last := by
  induction h with
  | nil => exact .nil ..
  | @cons t next made location entered last name names enters makes ih =>
    have all := makes.extends.trans more
    have follows := enters.follow?_eq
    have there := (enters.extends.trans all).follow?_eq (isDirectory_of_follow? follows) name
    exact .cons (.present (there.trans follows) (all.isDirectory enters.isDirectory)) (ih more)

/-- A file that is not in the way makes no difference. -/
theorem Makes.aside (h : Makes t location steps made last) (file : ¬ made.isDirectory place)
    (aside : Aside place t u) :
    ∃ later, Makes u location steps later last ∧ Aside place made later := by
  induction h generalizing u with
  | nil => exact ⟨u, .nil .., aside⟩
  | @cons t next made location entered last name names enters makes ih =>
    have away : entered ≠ place := by
      rintro rfl
      exact file (makes.extends.isDirectory enters.isDirectory)
    have follows := (aside.follow?_eq location name).symm.trans enters.follow?_eq
    cases enters with
    | present _ directory =>
      obtain ⟨later, makes, apart⟩ := ih file aside
      rw [aside.isDirectory_eq] at directory
      exact ⟨later, .cons (.present follows directory) makes, apart⟩
    | made _ missing free =>
      obtain ⟨later, makes, apart⟩ := ih file (aside.set_directory away)
      rw [aside.isDirectory_eq] at missing
      rw [aside.elsewhere entered away] at free
      exact ⟨later, .cons (.made follows missing free) makes, apart⟩

theorem origin_congr (h : t.workingDirectory = u.workingDirectory) (path : String) :
    t.origin path = u.origin path := by
  rw [origin, origin, h]

theorem makeDirectory_extends (h : FileTree.storage.makeDirectory path t = (true, made)) :
    Extends t made := by
  rcases makeDirectory_iff.1 h with ⟨-, rfl⟩ | ⟨-, -, last, makes⟩
  · exact .refl made
  · exact makes.extends

/-- What was made once is there. -/
theorem makeDirectory_again (h : FileTree.storage.makeDirectory path t = (true, made)) :
    FileTree.storage.makeDirectory path made = (true, made) := by
  rcases makeDirectory_iff.1 h with ⟨empty, -⟩ | ⟨some, legal, last, makes⟩
  · exact makeDirectory_iff.2 (.inl ⟨empty, rfl⟩)
  · have again := makes.again (.refl made)
    rw [← origin_congr makes.extends.workingDirectory] at again
    exact makeDirectory_iff.2 (.inr ⟨some, legal, last, again⟩)

theorem makeDirectory_aside (h : FileTree.storage.makeDirectory path t = (true, made))
    (file : ¬ made.isDirectory place) (aside : Aside place t u) :
    ∃ later, FileTree.storage.makeDirectory path u = (true, later) ∧ Aside place made later := by
  rcases makeDirectory_iff.1 h with ⟨empty, rfl⟩ | ⟨some, legal, last, makes⟩
  · exact ⟨u, makeDirectory_iff.2 (.inl ⟨empty, rfl⟩), aside⟩
  · obtain ⟨later, makes, apart⟩ := makes.aside file aside
    rw [origin_congr aside.workingDirectory] at makes
    exact ⟨later, makeDirectory_iff.2 (.inr ⟨some, legal, last, makes⟩), apart⟩

/-! ## Paths on which directories are missing -/

/-- Whatever there is lies in a directory. -/
def Grounded (t : FileTree) : Prop :=
  ∀ location, location ≠ [] → t.holds location ≠ none → t.isDirectory location.dropLast

/-- Where one name of a path leads once the directory is there. A directory that is missing cannot
be left again. -/
def towards? (t : FileTree) (location : Location) (name : String) : Option Location :=
  if t.isDirectory location then t.follow? location name
  else if name = "" ∨ name = "." then some location
  else if name ≠ ".." ∧ isName name then some (location ++ [name])
  else none

/-- A path leads to a place, or will do so once the directories are there that are missing at its
end. -/
def Names (t : FileTree) (path : String) (place : Location) : Prop :=
  path ≠ "" ∧ isPath path ∧ (names path).foldlM t.towards? (t.origin path) = some place

/-- There is nothing below a place that is no directory. -/
theorem Grounded.holds_append (grounded : t.Grounded) (file : ¬ t.isDirectory place) (more : Location)
    (below : more ≠ []) : t.holds (place ++ more) = none := by
  induction more using List.reverseRecOn with
  | nil => exact absurd rfl below
  | append_singleton more name ih =>
    by_contra held
    have above := grounded (place ++ (more ++ [name])) (by simp) held
    rw [← List.append_assoc, List.dropLast_concat] at above
    by_cases empty : more = []
    · rw [empty, List.append_nil] at above
      exact file above
    · rw [isDirectory, ih empty] at above
      simp [empty] at above

/-- From a place where nothing is a path leads only further down. -/
theorem isPrefix_of_towards (grounded : t.Grounded) (file : ¬ t.isDirectory location)
    (free : t.holds location = none) (leads : steps.foldlM t.towards? location = some place) :
    location <+: place := by
  induction steps generalizing location with
  | nil =>
    cases leads
    exact List.prefix_rfl
  | cons name steps ih =>
    obtain ⟨next, step, leads⟩ := Option.bind_eq_some_iff.1 leads
    unfold towards? at step
    split_ifs at step with stays further
    · cases step
      exact ih file free leads
    · cases step
      have below : t.holds (location ++ [name]) = none := grounded.holds_append file [name] (by simp)
      have missing : ¬ t.isDirectory (location ++ [name]) := by simp [isDirectory, below]
      exact (List.prefix_append ..).trans (ih missing below leads)

theorem grounded_empty (workingDirectory : Location) : (FileTree.empty workingDirectory).Grounded := by
  intro location _ held
  have above : location.isPrefixOf workingDirectory := by
    by_contra below
    exact held (if_neg below)
  have further := location.dropLast_prefix.trans (List.isPrefixOf_iff_prefix.1 above)
  simp [isDirectory, FileTree.empty, further]

/-- What is put in a directory, in place of anything but a directory, lies in one. -/
theorem Grounded.set (grounded : t.Grounded) (above : t.isDirectory location.dropLast)
    (file : ¬ t.isDirectory location) (entry : Option FileEntry) : (t.set location entry).Grounded := by
  have kept : ∀ other, t.isDirectory other → (t.set location entry).isDirectory other := by
    intro other directory
    have apart : other ≠ location := fun here => file (here ▸ directory)
    rwa [isDirectory, holds_set, if_neg apart]
  intro other below held
  by_cases here : other = location
  · exact kept _ (here ▸ above)
  · rw [holds_set, if_neg here] at held
    exact kept _ (grounded other below held)

theorem follow?_of_extends (h : Extends t u) (follows : t.follow? location name = some next) :
    u.follow? location name = some next :=
  (h.follow?_eq (isDirectory_of_follow? follows) name).trans follows

/-- Where a path leads in a tree with more directories is where it was to lead, and it led there
before or nothing was there. -/
theorem leads_of_extends (grounded : t.Grounded) (h : Extends t u)
    (named : steps.foldlM t.towards? location = some place)
    (found : steps.foldlM u.follow? location = some last) :
    last = place ∧ (steps.foldlM t.follow? location = some place ∨ t.holds place = none) := by
  induction steps generalizing location with
  | nil =>
    cases named
    cases found
    exact ⟨rfl, .inl rfl⟩
  | cons name steps ih =>
    obtain ⟨next, step, leads⟩ := Option.bind_eq_some_iff.1 named
    obtain ⟨other, follows, found⟩ := Option.bind_eq_some_iff.1 found
    by_cases directory : t.isDirectory location
    · rw [h.follow?_eq directory] at follows
      rw [towards?, if_pos directory, follows, Option.some.injEq] at step
      subst step
      rw [List.foldlM_cons, follows]
      exact ih leads found
    · have there := isDirectory_of_follow? follows
      have free : t.holds location = none := by
        rcases h.holds location with same | ⟨free, -⟩
        · rw [isDirectory, same] at there
          exact absurd there directory
        · exact free
      have same : other = next := by
        rw [follow?, if_pos there] at follows
        rw [towards?, if_neg directory] at step
        split_ifs at follows step <;> simp_all
      obtain ⟨more, whole⟩ := isPrefix_of_towards grounded directory free named
      refine ⟨(ih leads (same ▸ found)).1, .inr ?_⟩
      by_cases empty : more = []
      · rw [← whole, empty, List.append_nil, free]
      · rw [← whole, grounded.holds_append directory more empty]

theorem foldlM_follow?_of_extends (h : Extends t u) (found : steps.foldlM t.follow? location = some last) :
    steps.foldlM u.follow? location = some last := by
  induction steps generalizing location with
  | nil => exact found
  | cons name steps ih =>
    obtain ⟨next, follows, found⟩ := Option.bind_eq_some_iff.1 found
    rw [List.foldlM_cons, follow?_of_extends h follows]
    exact ih found

theorem locate?_of_extends (h : Extends t u) (found : t.locate? path = some place) :
    u.locate? path = some place := by
  unfold locate? at found ⊢
  split at found
  · cases found
  · next legal =>
    rw [if_neg legal, origin_congr h.workingDirectory]
    exact foldlM_follow?_of_extends h found

theorem Names.eq_of_locate? (named : t.Names path place) (grounded : t.Grounded) (h : Extends t u)
    (found : u.locate? path = some last) :
    last = place ∧ (t.locate? path = some place ∨ t.holds place = none) := by
  obtain ⟨some, legal, named⟩ := named
  have allowed : ¬ (path = "" ∨ !isPath path) := by simp [some, legal]
  rw [locate?, if_neg allowed, origin_congr h.workingDirectory] at found
  rw [locate?, if_neg allowed]
  exact leads_of_extends grounded h named found

/-- A path that names a place reads the same when directories are made, unless the place itself
becomes one. -/
theorem Names.read_eq (named : t.Names path place) (grounded : t.Grounded) (h : Extends t u)
    (file : ¬ u.isDirectory place) : u.read path = t.read path := by
  have before : ¬ t.isDirectory place := fun directory => file (h.isDirectory directory)
  cases found : t.locate? path with
  | some location =>
    obtain ⟨rfl, -⟩ := named.eq_of_locate? grounded h (locate?_of_extends h found)
    simp only [read, found, locate?_of_extends h found, file, before, h.holds_eq file]
  | none =>
    cases later : u.locate? path with
    | none => rw [read, read, found, later]
    | some location =>
      obtain ⟨rfl, led | free⟩ := named.eq_of_locate? grounded h later
      · rw [found] at led
        cases led
      · simp [read, found, later, file, h.holds_eq file, free]

/-! ## The directory above a path -/

/-- The directory above a path is there or can be made, and the last tree is the one with it. -/
inductive MakesParent (t : FileTree) (path : String) : FileTree → Prop where
  | top (above : Paths.parent? path = none) : MakesParent t path t
  | below {parent : String} {made : FileTree} (above : Paths.parent? path = some parent)
      (makes : FileTree.storage.makeDirectory parent t = (true, made)) : MakesParent t path made

theorem MakesParent.extends (h : MakesParent t path made) : Extends t made := by
  cases h with
  | top => exact .refl t
  | below _ makes => exact makeDirectory_extends makes

theorem MakesParent.again (h : MakesParent t path made) : MakesParent made path made := by
  cases h with
  | top above => exact .top above
  | below above makes => exact .below above (makeDirectory_again makes)

theorem MakesParent.aside (h : MakesParent t path made) (file : ¬ made.isDirectory place)
    (apart : Aside place t u) :
    ∃ later, MakesParent u path later ∧ Aside place made later := by
  cases h with
  | top above => exact ⟨u, .top above, apart⟩
  | below above makes =>
    obtain ⟨later, makes, apart⟩ := makeDirectory_aside makes file apart
    exact ⟨later, .below above makes, apart⟩

/-! ## Files -/

variable {bytes : List UInt8} {after : FileTree}

theorem attempt_eq (change : FileTree → Option FileTree) (t : FileTree) :
    attempt change t = (change t).elim (false, t) fun after => (true, after) := by
  rw [attempt]
  cases change t <;> rfl

theorem write_eq (t : FileTree) (path : String) (bytes : List UInt8) :
    FileTree.storage.write path bytes t =
      (t.write? path bytes).elim (false, t) fun after => (true, after) :=
  attempt_eq (·.write? path bytes) t

theorem remove_eq (t : FileTree) (path : String) :
    FileTree.storage.remove path t =
      (t.remove? path).elim (false, t) fun after => (true, after) :=
  attempt_eq (·.remove? path) t

/-- When writing a file succeeds, and what comes of it. -/
theorem write_iff :
    FileTree.storage.write path bytes t = (true, after) ↔
      ∃ place, t.locate? path = some place ∧ ¬ t.isDirectory place ∧
        after = t.set place (some (.file bytes)) := by
  rw [write_eq, write?]
  constructor
  · intro written
    cases leads : t.locate? path with
    | none => rw [leads] at written; cases written
    | some place =>
      by_cases directory : t.isDirectory place
      · rw [leads, Option.bind_eq_bind, Option.bind_some, if_pos directory] at written
        cases written
      · rw [leads, Option.bind_eq_bind, Option.bind_some, if_neg directory] at written
        cases written
        exact ⟨place, rfl, directory, rfl⟩
  · rintro ⟨place, leads, file, rfl⟩
    rw [leads, Option.bind_eq_bind, Option.bind_some, if_neg file, Option.elim_some]

theorem read_of_locate?_eq_none (nowhere : t.locate? path = none) : t.read path = .absent := by
  rw [read, nowhere]

theorem read_of_locate? (leads : t.locate? path = some place) (file : ¬ t.isDirectory place) :
    t.read path = match t.holds place with
      | some (.file bytes) => .content bytes
      | _ => .absent := by
  unfold read
  rw [leads]
  refine (if_neg file).trans ?_
  rcases t.holds place with _ | _ | _ <;> rfl

/-- A file reads as it was written. -/
theorem read_set_file (leads : t.locate? path = some place) (file : ¬ t.isDirectory place)
    (bytes : List UInt8) : (t.set place (some (.file bytes))).read path = .content bytes := by
  have aside : Aside place t (t.set place (some (.file bytes))) := .of_set file (by simp)
  rw [read_of_locate? (aside.locate?_eq path ▸ leads) aside.right, holds_set, if_pos rfl]

theorem read_set_none (leads : t.locate? path = some place) (file : ¬ t.isDirectory place) :
    (t.set place none).read path = .absent := by
  have aside : Aside place t (t.set place none) := .of_set file (by simp)
  rw [read_of_locate? (aside.locate?_eq path ▸ leads) aside.right, holds_set, if_pos rfl]

theorem remove_of_locate?_eq_none (nowhere : t.locate? path = none) :
    FileTree.storage.remove path t = (true, t) := by
  rw [remove_eq, remove?, nowhere]
  rfl

theorem remove_of_locate? (leads : t.locate? path = some place) (file : ¬ t.isDirectory place) :
    FileTree.storage.remove path t = (true, t.set place none) := by
  rw [remove_eq, remove?, leads]
  dsimp only
  rw [if_neg file, Option.elim_some]

/-- A file can be written at a path: the directory above it can be made, and then the path leads to
a place that is no directory. -/
structure WritesTo (t : FileTree) (path : String) (made : FileTree) (place : Location) : Prop where
  parent : MakesParent t path made
  leads : made.locate? path = some place
  file : ¬ made.isDirectory place

/-- A path has nothing to do with a file that is written elsewhere: it leads nowhere, or it names
another place, which is not made a directory on the way to that file. -/
inductive KeepsClear (t made : FileTree) (place : Location) (path : String) : Prop where
  | nowhere (leads : made.locate? path = none)
  | elsewhere {other : Location} (named : t.Names path other) (different : other ≠ place)
      (file : ¬ made.isDirectory other)

theorem KeepsClear.locate?_ne (h : t.KeepsClear made place path) (grounded : t.Grounded)
    (more : Extends t made) : made.locate? path ≠ some place := by
  intro leads
  cases h with
  | nowhere nowhere => simp [nowhere] at leads
  | elsewhere named different =>
    obtain ⟨here, -⟩ := named.eq_of_locate? grounded more leads
    exact different here.symm

theorem KeepsClear.read_eq (h : t.KeepsClear made place path) (grounded : t.Grounded)
    (more : Extends t made) : made.read path = t.read path := by
  cases h with
  | nowhere nowhere =>
    cases found : t.locate? path with
    | none => rw [read, read, nowhere, found]
    | some location =>
      rw [locate?_of_extends more found] at nowhere
      cases nowhere
  | elsewhere named _ file => exact named.read_eq grounded more file

end DraftDesk.FileTree
