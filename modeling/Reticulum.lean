import Reticulum.Announce
import Reticulum.Channel.Stall
import Reticulum.Channel.Window
import Reticulum.Lxmf.Attachment
import Reticulum.Lxmf.Fairness
import Reticulum.Lxmf.Refusal
import Reticulum.Lxmf.Retention
import Reticulum.Lxmf.Stamp
import Reticulum.Lxmf.Sync
import Reticulum.Lxmf.TicketAgreement
import Reticulum.Lxmf.Trust
import Reticulum.Nomad.Rooms
import Reticulum.Radio.Air
import Reticulum.Radio.Driver
import Reticulum.Runtime.Endings
import Reticulum.Runtime.Outsiders
import Reticulum.Runtime.Poll
import Reticulum.Runtime.Registry
import Reticulum.Storage.Record
import Reticulum.Transport.Forwarding
import Reticulum.Transport.Ifac
import Reticulum.Transport.Persistence
import Reticulum.Transport.RouteTables
import Reticulum.Tui.Wrap
