import DraftDesk.LabelCache

/-!
# The sidebar

The sidebar collapses to a fixed width and expands to the width it had before. Its button is
labelled with what it would do next.
-/

namespace DraftDesk

/-- What the view does after a toggle. -/
structure SidebarChange where
  width : String
  /-- The key of the button's label. -/
  labelKey : String
  deriving DecidableEq, Repr, Inhabited

structure Sidebar where
  hidden : Bool
  /-- The width to expand to. -/
  savedWidth : String
  collapsedWidth : String
  deriving DecidableEq, Repr

namespace Sidebar

def defaultCollapsedWidth : String := "10px"

/-- The label of the button while the sidebar is expanded. -/
def hideKey : String := "hide"

/-- The label of the button while the sidebar is collapsed. -/
def showKey : String := "show"

/-- An expanded sidebar that collapses to a width. -/
def ofCollapsedWidth (width : String) : Sidebar := ⟨false, "", width⟩

instance : Inhabited Sidebar := ⟨ofCollapsedWidth defaultCollapsedWidth⟩

/-- Collapses or expands the sidebar, which has a width at present. -/
def toggle (width : String) (s : Sidebar) : SidebarChange × Sidebar :=
  if s.hidden then (⟨s.savedWidth, hideKey⟩, { s with hidden := false })
  else (⟨s.collapsedWidth, showKey⟩, { s with hidden := true, savedWidth := width })

/-- Toggles the sidebar and then looks for the label of its button. The sidebar stays toggled
where no label is found. -/
def toggleLabelled {m : Type → Type} [Monad m] {ε : Type} (width : String)
    (fetch : String → StateT LabelCache m (Outcome ε String)) (s : Sidebar) :
    StateT LabelCache m (Option (Outcome ε (SidebarChange × String)) × Sidebar) := do
  let (change, s) := s.toggle width
  let label ← LabelCache.ask (.label change.labelKey) (fetch change.labelKey)
  return (label.map (Outcome.map fun text => (change, text)), s)

end Sidebar

end DraftDesk
