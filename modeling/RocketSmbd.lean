import RocketSmbd.PacDecode
import RocketSmbd.Safety.Admission
import RocketSmbd.Safety.Authentication
import RocketSmbd.Safety.Batching
import RocketSmbd.Safety.ChainedHandles
import RocketSmbd.Safety.Confinement
import RocketSmbd.Safety.CreateContexts
import RocketSmbd.Safety.Credits
import RocketSmbd.Safety.Enumeration
import RocketSmbd.Safety.FailedCreate
import RocketSmbd.Safety.Framing
import RocketSmbd.Safety.HandleIds
import RocketSmbd.Safety.HandleMap
import RocketSmbd.Safety.LeaseBooks
import RocketSmbd.Safety.Leases
import RocketSmbd.Safety.Locks
import RocketSmbd.Safety.NegotiateEcho
import RocketSmbd.Safety.Negotiation
import RocketSmbd.Safety.Nonces
import RocketSmbd.Safety.Notifies
import RocketSmbd.Safety.NotifyEncoding
import RocketSmbd.Safety.Paths
import RocketSmbd.Safety.Plans
import RocketSmbd.Safety.Sealing
import RocketSmbd.Safety.SetupSuccess
import RocketSmbd.Safety.Spelling
import RocketSmbd.Safety.Timestamps
import RocketSmbd.Safety.Violations
import RocketSmbd.Safety.Wakeups
import RocketSmbd.Safety.ZeroCopy
import RocketSmbd.SecurityBlobs
import RocketSmbd.ShareLists
import RocketSmbd.SidText
import RocketSmbd.Smb1
