import DraftDesk.CacheScript
import DraftDesk.Crowd
import DraftDesk.FileTree
import DraftDesk.Forms
import DraftDesk.Main
import DraftDesk.Sidebar
import DraftDesk.Proofs.Boundaries
import DraftDesk.Proofs.ToggleBranches
import DraftDesk.Proofs.ToggleReference
import DraftDesk.Proofs.SelectionEnds
import DraftDesk.Proofs.ToggleInverse
import DraftDesk.Proofs.Settling
import DraftDesk.Proofs.ByteSlices
import DraftDesk.Proofs.ByteOffsets
import DraftDesk.Proofs.CheckedToggle
import DraftDesk.Proofs.BufferEdits
import DraftDesk.Proofs.Ropes
import DraftDesk.Proofs.RopeBuffer
import DraftDesk.Proofs.RopeReadings
import DraftDesk.Proofs.TextLines
import DraftDesk.Proofs.RopeLines
import DraftDesk.Proofs.ToolbarRuns
import DraftDesk.Proofs.StackedStyles
import DraftDesk.Proofs.CacheContents
import DraftDesk.Proofs.CallerSteps
import DraftDesk.Proofs.Flights
import DraftDesk.Proofs.CallerPrograms
import DraftDesk.Proofs.Deliveries
import DraftDesk.Proofs.Serving
import DraftDesk.Proofs.Wakeups
import DraftDesk.Proofs.CrowdSteps
import DraftDesk.Proofs.CrowdOutcome
import DraftDesk.Proofs.Stragglers
import DraftDesk.Proofs.Forgetting
import DraftDesk.Proofs.Utf8Texts
import DraftDesk.Proofs.FilePlaces
import DraftDesk.Proofs.SavedFlags
import DraftDesk.Proofs.FlagFiles
import DraftDesk.Proofs.DefaultsHistory
import DraftDesk.Proofs.PercentDecoding
import DraftDesk.Proofs.ShownOnce
import DraftDesk.Proofs.WrittenTokens
import DraftDesk.Proofs.WrittenValues
import DraftDesk.Proofs.WrittenRecords
import DraftDesk.Proofs.EditHistory
import DraftDesk.Proofs.SidebarRuns
import DraftDesk.Proofs.FlagLists
import DraftDesk.Proofs.SavedNames
import DraftDesk.Proofs.CodedCookies
import DraftDesk.Proofs.Base64Data
import DraftDesk.Proofs.GregorianDays
import DraftDesk.Proofs.HttpDates
import DraftDesk.Proofs.CookieExpiry
import DraftDesk.Proofs.FlagMerges
import DraftDesk.Proofs.NestedFetches
import DraftDesk.Proofs.LoggedRequests
import DraftDesk.Proofs.RequestPaths
import DraftDesk.Proofs.RecordFields
import DraftDesk.Proofs.FormRequests
