import PrivateVm.Session.Attempts
import PrivateVm.Session.Convergence
import PrivateVm.Session.Observers
import PrivateVm.Session.Removal
import PrivateVm.Session.Stream
import PrivateVm.Session.Strict
import PrivateVm.Torrent.Completion
import PrivateVm.Torrent.Input
import PrivateVm.Torrent.Reselection
import PrivateVm.Torrent.ReservedNames
import PrivateVm.Torrent.Selection
import PrivateVm.Torrent.VpnLoss
import PrivateVm.GuestVpn.CurrentEndpoint
import PrivateVm.GuestVpn.HostGate
import PrivateVm.GuestVpn.KillSwitch
import PrivateVm.GuestVpn.Monitor
import PrivateVm.GuestVpn.Online
import PrivateVm.GuestVpn.Removal
import PrivateVm.GuestVpn.SilentDrop
import PrivateVm.Network.Collisions
import PrivateVm.Network.Handoff
import PrivateVm.Workstation.EveryFile
import PrivateVm.Workstation.VerifiedExport
import PrivateVm.Usb.Admission
import PrivateVm.Usb.ClaimExclusion
import PrivateVm.Usb.ExportRun
import PrivateVm.Usb.Preparation
import PrivateVm.Scan.Approval
import PrivateVm.Scan.Clamd
import PrivateVm.Scan.ReportNames
import PrivateVm.Scanner.Atomic
import PrivateVm.Storage.Sizes
