import DraftDesk.Proofs.FlagFiles

/-!
# Defaults over a history of runs

Runs of the program come one after another and find the files as the earlier ones left them. The
global file is the only one they change, so a tree at any time is the first one, or the one in which
the directory of the global file was made, except for that file (`Kept`). What the file then keeps is
told by the history: the flags of the latest run that saved, unless it was cleared since.
-/

namespace DraftDesk.FlagFile
open FileTree

variable {tree made now after : FileTree} {globalPath localPath : String} {place : Location}
  {initial flags : Flags}

/-! ## The law -/

/-- One run: the flags given, and what is done with the global file. -/
structure Call where
  given : Flags
  saving : Bool
  clearing : Bool
  deriving DecidableEq, Repr

/-- The tree after some runs. -/
def afterCalls (tree : FileTree) (globalPath localPath : String) (calls : List Call) : FileTree :=
  calls.foldl (fun now call =>
    ((resolve FileTree.storage globalPath localPath call.given call.saving call.clearing).run now).2) tree

/-- The saved defaults after some runs: those of the latest run that saved or cleared. -/
def savedDefaults (initial : Flags) (calls : List Call) : Flags :=
  match calls.reverse.find? fun call => call.saving || call.clearing with
  | some call => if call.saving then call.given else .empty
  | none => initial

theorem savedDefaults_concat (initial : Flags) (calls : List Call) (call : Call) :
    savedDefaults initial (calls ++ [call]) =
      if call.saving then call.given
      else if call.clearing then .empty
      else savedDefaults initial calls := by
  obtain ⟨given, saving, clearing⟩ := call
  cases saving <;> cases clearing <;> simp [savedDefaults]

theorem afterCalls_concat (tree : FileTree) (globalPath localPath : String) (calls : List Call)
    (call : Call) :
    afterCalls tree globalPath localPath (calls ++ [call]) =
      ((resolve FileTree.storage globalPath localPath call.given call.saving call.clearing).run
        (afterCalls tree globalPath localPath calls)).2 := by
  rw [afterCalls, List.foldl_append, ← afterCalls]
  rfl

/-! ## What the runs keep -/

/-- A tree that came of the first one by changes of the global file alone, which keeps some defaults. -/
structure Kept (tree made : FileTree) (place : Location) (globalPath : String) (defaults : Flags)
    (now : FileTree) : Prop where
  aside : Aside place tree now ∨ Aside place made now
  defaults : kept? (now.read globalPath) = some defaults

/-- Two files: one that can be written, and another one that keeps clear of it. -/
structure TwoFiles (tree made : FileTree) (place : Location) (globalPath localPath : String) : Prop where
  grounded : tree.Grounded
  writes : tree.WritesTo globalPath made place
  apart : tree.KeepsClear made place localPath

theorem run_bind_ok {α β : Type} {x : ExceptT FlagFileError (StateM FileTree) α} {a : α}
    (h : x.run now = (.ok a, after)) (f : α → ExceptT FlagFileError (StateM FileTree) β) :
    (x >>= f).run now = (f a).run after := by
  have unfolded : (x >>= f).run now = (ExceptT.bindCont f (x.run now).1) (x.run now).2 := rfl
  rw [unfolded, h]
  rfl

/-- A run that neither saves nor clears adds up what the files keep and what is given. -/
theorem run_resolve_of_kept {globalFlags localFlags : Flags}
    (globalRead : kept? (now.read globalPath) = some globalFlags)
    (localRead : kept? (now.read localPath) = some localFlags) (given : Flags) :
    (resolve FileTree.storage globalPath localPath given false false).run now =
      (.ok ((globalFlags.union localFlags).union given), now) := by
  have globalLoad : (load FileTree.storage globalPath).run now = (.ok globalFlags, now) := by
    rw [run_load, globalRead]
    rfl
  have localLoad : (load FileTree.storage localPath).run now = (.ok localFlags, now) := by
    rw [run_load, localRead]
    rfl
  have unfolded : (resolve FileTree.storage globalPath localPath given false false).run now = (do
      let globalFlags ← load FileTree.storage globalPath
      let localFlags ← load FileTree.storage localPath
      return (globalFlags.union localFlags).union given).run now := rfl
  rw [unfolded, run_bind_ok globalLoad, run_bind_ok localLoad]
  rfl

namespace TwoFiles

variable {defaults : Flags} (files : TwoFiles tree made place globalPath localPath)
include files

theorem start (read : kept? (tree.read globalPath) = some initial) :
    Kept tree made place globalPath initial tree where
  aside := .inl (.refl fun directory =>
    files.writes.file (files.writes.parent.extends.isDirectory directory))
  defaults := read

theorem locate?_globalPath (kept : Kept tree made place globalPath defaults now) :
    now.locate? globalPath = none ∨ now.locate? globalPath = some place := by
  rcases kept.aside with aside | aside
  · rw [← aside.locate?_eq]
    cases leads : tree.locate? globalPath with
    | none => exact .inl rfl
    | some location =>
      have later := locate?_of_extends files.writes.parent.extends leads
      exact .inr (later.symm.trans files.writes.leads)
  · rw [← aside.locate?_eq]
    exact .inr files.writes.leads

theorem read_localPath (kept : Kept tree made place globalPath defaults now) :
    now.read localPath = tree.read localPath := by
  have more := files.writes.parent.extends
  have away := files.apart.locate?_ne files.grounded more
  rcases kept.aside with aside | aside
  · exact (aside.read_eq fun here => away (locate?_of_extends more here)).symm
  · exact (aside.read_eq away).symm.trans (files.apart.read_eq files.grounded more)

/-- Every other file is as it was. -/
theorem holds_file (kept : Kept tree made place globalPath defaults now) {location : Location}
    (away : location ≠ place) (bytes : List UInt8) :
    now.holds location = some (.file bytes) ↔ tree.holds location = some (.file bytes) := by
  rcases kept.aside with aside | aside
  · rw [aside.elsewhere location away]
  · rw [← aside.elsewhere location away]
    rcases files.writes.parent.extends.holds location with same | ⟨free, new⟩
    · rw [same]
    · simp [free, new]

/-! ## One run -/

theorem run_clear (kept : Kept tree made place globalPath defaults now) :
    ∃ after, (clear FileTree.storage globalPath).run now = (.ok (), after) ∧
      Kept tree made place globalPath .empty after := by
  have unfolded : clear FileTree.storage globalPath =
      demand (FileTree.storage.remove globalPath) (.remove globalPath) := rfl
  rw [unfolded]
  rcases files.locate?_globalPath kept with nowhere | leads
  · refine ⟨now, run_demand_eq_ok_iff.2 (remove_of_locate?_eq_none nowhere), kept.aside, ?_⟩
    rw [read_of_locate?_eq_none nowhere]
    rfl
  · have file : ¬ now.isDirectory place := kept.aside.elim Aside.right Aside.right
    have change : Aside place now (now.set place none) := .of_set file (by simp)
    refine ⟨now.set place none, run_demand_eq_ok_iff.2 (remove_of_locate? leads file), ?_, ?_⟩
    · exact kept.aside.imp (·.trans change) (·.trans change)
    · rw [read_set_none leads file]
      rfl

theorem run_save (kept : Kept tree made place globalPath defaults now) (fits : flags.FitsTokens) :
    ∃ after, (save FileTree.storage globalPath flags).run now = (.ok (), after) ∧
      Kept tree made place globalPath flags after := by
  have writes := files.writes
  -- The directory is made, or it has been made before.
  have parent : ∃ later, now.MakesParent globalPath later ∧ Aside place made later :=
    kept.aside.elim (writes.parent.aside writes.file) (writes.parent.again.aside writes.file)
  obtain ⟨later, parent, aside⟩ := parent
  have leads : later.locate? globalPath = some place := aside.locate?_eq globalPath ▸ writes.leads
  have file := aside.right
  refine ⟨_, run_save_eq_ok_iff.2 ⟨later, place, ⟨parent, leads, file⟩, rfl⟩, ?_, ?_⟩
  · exact .inr (aside.trans (.of_set file (by simp)))
  · rw [read_set_file leads file, kept?_content, (ofTokens_render_eq_iff flags).2 fits]

theorem run_load_both (kept : Kept tree made place globalPath defaults now) {localFlags : Flags}
    (read : kept? (tree.read localPath) = some localFlags) (given : Flags) :
    (resolve FileTree.storage globalPath localPath given false false).run now =
      (.ok ((defaults.union localFlags).union given), now) := by
  apply run_resolve_of_kept kept.defaults
  rw [files.read_localPath kept, read]

/-- One run gives what the law says, and keeps the defaults that it says. -/
theorem run_resolve (kept : Kept tree made place globalPath defaults now) {localFlags : Flags}
    (read : kept? (tree.read localPath) = some localFlags) (call : Call)
    (fits : call.given.FitsTokens) :
    ∃ saved after,
      saved = (if call.saving then call.given else if call.clearing then .empty else defaults) ∧
      (resolve FileTree.storage globalPath localPath call.given call.saving call.clearing).run now =
        (.ok (if call.clearing then call.given else (saved.union localFlags).union call.given), after) ∧
      Kept tree made place globalPath saved after ∧
      (call.saving = false → call.clearing = false → after = now) := by
  obtain ⟨given, saving, clearing⟩ := call
  cases clearing with
  | true =>
    obtain ⟨cleared, clear, kept⟩ := files.run_clear kept
    cases saving with
    | true =>
      obtain ⟨after, save, kept⟩ := files.run_save kept fits
      refine ⟨given, after, rfl, ?_, kept, nofun⟩
      exact (run_bind_ok clear _).trans (run_bind_ok save _)
    | false =>
      refine ⟨.empty, cleared, rfl, ?_, kept, nofun⟩
      exact run_bind_ok clear _
  | false =>
    cases saving with
    | true =>
      obtain ⟨after, save, kept⟩ := files.run_save kept fits
      refine ⟨given, after, rfl, ?_, kept, nofun⟩
      exact (run_bind_ok save _).trans (files.run_load_both kept read given)
    | false =>
      exact ⟨defaults, now, rfl, files.run_load_both kept read given, kept, fun _ _ => rfl⟩

/-! ## All runs -/

theorem kept_afterCalls (globalRead : kept? (tree.read globalPath) = some initial)
    {localFlags : Flags} (localRead : kept? (tree.read localPath) = some localFlags)
    {calls : List Call} (fits : ∀ call ∈ calls, call.given.FitsTokens) :
    Kept tree made place globalPath (savedDefaults initial calls)
      (afterCalls tree globalPath localPath calls) := by
  induction calls using List.reverseRecOn with
  | nil => exact files.start globalRead
  | append_singleton calls call ih =>
    have before := ih fun other mem => fits other (List.mem_append_left _ mem)
    obtain ⟨saved, after, law, run, kept, -⟩ :=
      files.run_resolve before localRead call (fits call (by simp))
    rw [afterCalls_concat, run, savedDefaults_concat, ← law]
    exact kept

end TwoFiles

/-- A run that clears is left with the flags given. Any other one adds those to the local ones, and
these to the defaults last saved. Only the global file is changed, and only by runs that save or
clear. -/
theorem defaults_follow_history (files : TwoFiles tree made place globalPath localPath)
    {localFlags : Flags} (globalRead : kept? (tree.read globalPath) = some initial)
    (localRead : kept? (tree.read localPath) = some localFlags) (past : List Call) (call : Call)
    (fits : ∀ other ∈ past ++ [call], other.given.FitsTokens) :
    (resolve FileTree.storage globalPath localPath call.given call.saving call.clearing).run
        (afterCalls tree globalPath localPath past) =
      (.ok (if call.clearing then call.given
        else ((savedDefaults initial (past ++ [call])).union localFlags).union call.given),
      afterCalls tree globalPath localPath (past ++ [call])) ∧
    (afterCalls tree globalPath localPath (past ++ [call])).read localPath = tree.read localPath ∧
    (∀ location, location ≠ place → ∀ bytes,
      (afterCalls tree globalPath localPath (past ++ [call])).holds location = some (.file bytes) ↔
        tree.holds location = some (.file bytes)) ∧
    (call.saving = false → call.clearing = false →
      afterCalls tree globalPath localPath (past ++ [call]) =
        afterCalls tree globalPath localPath past) := by
  have before := files.kept_afterCalls globalRead localRead fun other mem =>
    fits other (List.mem_append_left _ mem)
  have now := files.kept_afterCalls globalRead localRead fits
  obtain ⟨saved, after, law, run, -, still⟩ :=
    files.run_resolve before localRead call (fits call (by simp))
  have last : afterCalls tree globalPath localPath (past ++ [call]) = after := by
    rw [afterCalls_concat, run]
  refine ⟨?_, files.read_localPath now, fun location away => files.holds_file now away, ?_⟩
  · rw [run, last, savedDefaults_concat, ← law]
  · rwa [last]

theorem home_twoFiles :
    TwoFiles home (home.set ["home", "settings"] (some .directory)) ["home", "settings", "config"]
      "/home/settings/config" ".markpenrc" where
  grounded := (grounded_empty ["home"]).set (by decide) (by decide) _
  writes := home_writesTo
  apart := by
    have named : home.Names ".markpenrc" ["home", ".markpenrc"] := ⟨by decide, by decide, by decide⟩
    exact .elsewhere named (by decide) (by decide)

/-- Two runs that save, with one between them that clears, and a last one that only reads. -/
theorem defaults_follow_history_of_four :
    (resolve FileTree.storage "/home/settings/config" ".markpenrc" ⟨false, none, some 7⟩ false false).run
        (afterCalls home "/home/settings/config" ".markpenrc"
          [⟨⟨false, some "seen", some 30⟩, true, false⟩, ⟨.empty, false, true⟩,
            ⟨⟨false, some "told", none⟩, true, false⟩]) =
      (.ok ⟨true, some "told", some 7⟩,
        afterCalls home "/home/settings/config" ".markpenrc"
          [⟨⟨false, some "seen", some 30⟩, true, false⟩, ⟨.empty, false, true⟩,
            ⟨⟨false, some "told", none⟩, true, false⟩]) := by
  have globalRead : kept? (home.read "/home/settings/config") = some .empty := by decide
  have localRead : kept? (home.read ".markpenrc") = some ⟨true, none, none⟩ := by decide
  have fits : ∀ call ∈ [Call.mk ⟨false, some "seen", some 30⟩ true false, ⟨.empty, false, true⟩,
      ⟨⟨false, some "told", none⟩, true, false⟩, ⟨⟨false, none, some 7⟩, false, false⟩],
      call.given.FitsTokens := by decide
  obtain ⟨run, -, -, still⟩ := defaults_follow_history home_twoFiles globalRead localRead
    [⟨⟨false, some "seen", some 30⟩, true, false⟩, ⟨.empty, false, true⟩,
      ⟨⟨false, some "told", none⟩, true, false⟩] ⟨⟨false, none, some 7⟩, false, false⟩ fits
  rw [still rfl rfl] at run
  exact run

end DraftDesk.FlagFile
