import SettingsForge.Main
import SettingsForge.Proofs.Engine.Requests
import SettingsForge.Proofs.Workspace.Notified
import SettingsForge.Proofs.Workspace.Bubbled
import SettingsForge.Proofs.Workspace.Copied
import SettingsForge.Proofs.Workspace.Errors
import SettingsForge.Proofs.Workspace.Failed
import SettingsForge.Proofs.Workspace.Typed
import SettingsForge.Proofs.Workspace.Restored
import SettingsForge.Proofs.Workspace.Offered
import SettingsForge.Proofs.Workspace.Differences
import SettingsForge.Proofs.Settings.Differences
import SettingsForge.Proofs.Hub.Recorded
import SettingsForge.Proofs.Settings.Sealing
import SettingsForge.Proofs.Workspace.Turns
import SettingsForge.Proofs.Workspace.Subscriptions
import SettingsForge.Proofs.Settings.BlurredCopies
import SettingsForge.Proofs.Engine.Blurring
import SettingsForge.Proofs.Workspace.Blurring
import SettingsForge.Proofs.Workspace.BlurredSteps
import SettingsForge.Proofs.Workspace.ObservableKinds
import SettingsForge.Proofs.Schema.Building
import SettingsForge.Proofs.Settings.Positions
import SettingsForge.Proofs.Engine.Positions
import SettingsForge.Proofs.Workspace.Expected
import SettingsForge.Proofs.Workspace.Structure
import SettingsForge.Proofs.Settings.Narrowing
import SettingsForge.Proofs.Engine.Inheriting
import SettingsForge.Proofs.Settings.Bare
import SettingsForge.Proofs.Settings.BareCopies
import SettingsForge.Proofs.Workspace.TwinSteps
import SettingsForge.Proofs.Workspace.Twins
import SettingsForge.Proofs.Settings.Reading
import SettingsForge.Proofs.Workspace.Reading
import SettingsForge.Proofs.Settings.Resetting
import SettingsForge.Proofs.Workspace.Reset
import SettingsForge.Proofs.Engine.Boundaries
import SettingsForge.Proofs.Workspace.Boundaries
import SettingsForge.Proofs.Value.RoundTrip
import SettingsForge.Proofs.Reconcile
import SettingsForge.Proofs.Initializer.Honest
import SettingsForge.Proofs.ValueType.Reordering
import SettingsForge.Proofs.Workspace.Assigned
import SettingsForge.Proofs.Workspace.Refused
import SettingsForge.Proofs.Workspace.Merged
import SettingsForge.Proofs.Workspace.AbstractItems
