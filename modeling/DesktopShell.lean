import DesktopShell.Main
import DesktopShell.Proofs.Desk.Chronicle
import DesktopShell.Proofs.Desk.Opening
import DesktopShell.Proofs.Desk.Saving
import DesktopShell.Proofs.Desktop.AppIds
import DesktopShell.Proofs.Desktop.Frame
import DesktopShell.Proofs.Desktop.Gestures
import DesktopShell.Proofs.Desktop.Icons
import DesktopShell.Proofs.Desktop.References
import DesktopShell.Proofs.Files.Refusal
import DesktopShell.Proofs.Number.Numerals
import DesktopShell.Proofs.Script.Canonical
import DesktopShell.Proofs.Script.Guarded
import DesktopShell.Proofs.Terminal.Recall
