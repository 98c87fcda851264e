import DraftDesk.Proofs.SavedFlags

/-!
# Flag files in a file tree

What loading and saving do in a file tree. Saving makes the directory above the path and then writes
the file, so it succeeds just where a file can be written (`WritesTo`). What is loaded afterwards is
what the text of the flags reads as.
-/

namespace DraftDesk.FlagFile
open FileTree

variable {t made after : FileTree} {path parent : String} {place : Location} {flags : Flags}

/-! ## Loading -/

/-- The flags that come of reading a file, unless it cannot be read. -/
def kept? : Reading → Option Flags
  | .absent => some .empty
  | .unreadable => none
  | .content bytes => (Utf8.decode? bytes).map fun text => .ofTokens (tokens text)

theorem run_load (t : FileTree) (path : String) :
    (load FileTree.storage path).run t =
      ((kept? (t.read path)).elim (.error (.read path)) .ok, t) := by
  have start : ∀ body : Reading → ExceptT FlagFileError (StateM FileTree) Flags,
      (liftM (FileTree.storage.read path) >>= body).run t = (body (t.read path)).run t := fun _ => rfl
  rw [load, start]
  cases t.read path with
  | absent => rfl
  | unreadable => rfl
  | content bytes =>
    dsimp only [kept?]
    cases Utf8.decode? bytes <;> rfl

theorem kept?_content (text : List Char) :
    kept? (.content (Utf8.encode text)) = some (.ofTokens (tokens text)) := by
  rw [kept?, Utf8.decode?_encode, Option.map_some]

/-! ## Saving -/

/-- A change that has to happen. -/
def demand (change : StateM FileTree Bool) (error : FlagFileError) :
    ExceptT FlagFileError (StateM FileTree) Unit := do
  unless ← change do throw error

theorem run_demand (change : StateM FileTree Bool) (error : FlagFileError) (t : FileTree) :
    (demand change error).run t =
      (if (change t).1 then .ok () else .error error, (change t).2) := by
  have unfolded : (demand change error).run t =
      (if (change t).1 then pure () else throw error :
        ExceptT FlagFileError (StateM FileTree) Unit).run (change t).2 := rfl
  rw [unfolded]
  split <;> rfl

theorem run_demand_eq_ok_iff {change : StateM FileTree Bool} {error : FlagFileError} :
    (demand change error).run t = (.ok (), after) ↔ change t = (true, after) := by
  rw [run_demand]
  rcases change t with ⟨_ | _, next⟩ <;> constructor <;> rintro ⟨⟩ <;> rfl

/-- Writing the file of some flags, once its directory is there. -/
def write (path : String) (flags : Flags) : ExceptT FlagFileError (StateM FileTree) Unit :=
  demand (FileTree.storage.write path (Utf8.encode (render flags))) (.write path)

theorem run_save_top (above : Paths.parent? path = none) (flags : Flags) :
    (save FileTree.storage path flags).run t = (write path flags).run t := by
  rw [save, above]
  rfl

theorem run_save_below (above : Paths.parent? path = some parent) (flags : Flags) :
    (save FileTree.storage path flags).run t =
      match FileTree.storage.makeDirectory parent t with
      | (true, made) => (write path flags).run made
      | (false, made) => (.error (.makeDirectory parent), made) := by
  have unfolded : (save FileTree.storage path flags).run t =
      (if (FileTree.storage.makeDirectory parent t).1 then write path flags
        else do
          throw (.makeDirectory parent)
          write path flags).run (FileTree.storage.makeDirectory parent t).2 := by
    rw [save, above]
    rfl
  rw [unfolded]
  rcases FileTree.storage.makeDirectory parent t with ⟨_ | _, made⟩ <;> rfl

theorem run_save_of (h : t.MakesParent path made) (flags : Flags) :
    (save FileTree.storage path flags).run t = (write path flags).run made := by
  cases h with
  | top above => exact run_save_top above flags
  | below above makes => rw [run_save_below above, makes]

theorem exists_makesParent (saved : (save FileTree.storage path flags).run t = (.ok (), after)) :
    ∃ made, t.MakesParent path made := by
  cases above : Paths.parent? path with
  | none => exact ⟨t, .top above⟩
  | some parent =>
    rw [run_save_below above] at saved
    rcases makes : FileTree.storage.makeDirectory parent t with ⟨_ | _, made⟩
    · rw [makes] at saved
      cases saved
    · exact ⟨made, .below above makes⟩

/-- Saving succeeds just where a file can be written. -/
theorem run_save_eq_ok_iff :
    (save FileTree.storage path flags).run t = (.ok (), after) ↔
      ∃ made place, t.WritesTo path made place ∧
        after = made.set place (some (.file (Utf8.encode (render flags)))) := by
  constructor
  · intro saved
    obtain ⟨made, parent⟩ := exists_makesParent saved
    rw [run_save_of parent, write, run_demand_eq_ok_iff, write_iff] at saved
    obtain ⟨place, leads, file, rfl⟩ := saved
    exact ⟨made, place, ⟨parent, leads, file⟩, rfl⟩
  · rintro ⟨made, place, ⟨parent, leads, file⟩, rfl⟩
    rw [run_save_of parent, write, run_demand_eq_ok_iff, write_iff]
    exact ⟨place, leads, file, rfl⟩

/-- Where a file can be written, what is loaded after saving is what the text of the flags says. -/
theorem exists_read_back (writes : t.WritesTo path made place) (flags : Flags) :
    ∃ after,
      (save FileTree.storage path flags).run t = (.ok (), after) ∧
      (load FileTree.storage path).run after = (.ok (.ofTokens (tokens (render flags))), after) := by
  refine ⟨made.set place (some (.file (Utf8.encode (render flags)))), ?saved, ?loaded⟩
  case saved => exact run_save_eq_ok_iff.2 ⟨made, place, writes, rfl⟩
  case loaded =>
    rw [run_load, read_set_file writes.leads writes.file, kept?_content]
    rfl

/-- Saved flags are read back just where they can be written as tokens: the name of the cookie is
not empty and has no white space in it, and the lifetime is one that is accepted. -/
theorem reads_back_iff_fits (writes : t.WritesTo path made place) (flags : Flags) :
    ∃ after loaded,
      (save FileTree.storage path flags).run t = (.ok (), after) ∧
      (load FileTree.storage path).run after = (.ok loaded, after) ∧
      (loaded = flags ↔ flags.FitsTokens) := by
  obtain ⟨after, saved, loaded⟩ := exists_read_back writes flags
  exact ⟨after, _, saved, loaded, ofTokens_render_eq_iff flags⟩

/-- A tree with a local file, in which the directory for settings is still missing. -/
def home : FileTree :=
  (FileTree.empty ["home"]).set ["home", ".markpenrc"] (some (.file (Utf8.encode "--debug\n".toList)))

theorem home_makes :
    Makes home [] ["", "home", "settings"] (home.set ["home", "settings"] (some .directory))
      ["home", "settings"] := by
  have root : Enters home [] "" home [] := .present (by decide) (by decide)
  have user : Enters home [] "home" home ["home"] := .present (by decide) (by decide)
  have settings : Enters home ["home"] "settings" (home.set ["home", "settings"] (some .directory))
      ["home", "settings"] := .made (by decide) (by decide) (by decide)
  exact .cons root (.cons user (.cons settings (.nil ..)))

theorem home_writesTo :
    home.WritesTo "/home/settings/config" (home.set ["home", "settings"] (some .directory))
      ["home", "settings", "config"] where
  parent := by
    have names : names "/home/settings" = ["", "home", "settings"] := by decide
    have origin : home.origin "/home/settings" = [] := by decide
    have makes : FileTree.storage.makeDirectory "/home/settings" home =
        (true, home.set ["home", "settings"] (some .directory)) := by
      refine makeDirectory_iff.2 (.inr ⟨by decide, by decide, ["home", "settings"], ?_⟩)
      rw [names, origin]
      exact home_makes
    exact .below (by decide) makes
  leads := by decide
  file := by decide

/-- A cookie that is named like a flag is read back. -/
theorem reads_back_cookie_named_debug :
    ∃ after,
      (save FileTree.storage "/home/settings/config" ⟨false, some "--debug", some 30⟩).run home =
        (.ok (), after) ∧
      (load FileTree.storage "/home/settings/config").run after =
        (.ok ⟨false, some "--debug", some 30⟩, after) := by
  have fits : Flags.FitsTokens ⟨false, some "--debug", some 30⟩ := by decide
  obtain ⟨after, loaded, saved, read, same⟩ :=
    reads_back_iff_fits home_writesTo ⟨false, some "--debug", some 30⟩
  rw [same.2 fits] at read
  exact ⟨after, saved, read⟩

end DraftDesk.FlagFile
