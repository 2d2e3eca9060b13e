import Slopmud.Proof.BanEvents
import Slopmud.Proof.Subscribers
import Slopmud.Proof.Parties
import Slopmud.Proof.OneBody
import Slopmud.Proof.Stores
import Slopmud.Proof.LogLines
import Slopmud.Proof.Frames
import Slopmud.Proof.WebSessions
import Slopmud.Proof.AccessKeys
import Slopmud.Proof.Portal
import Slopmud.Proof.Gateway
import Slopmud.Proof.Holds
import Slopmud.Proof.ShardLink
import Slopmud.Proof.FailedSaves
import Slopmud.Proof.Cleanup
import Slopmud.Proof.LogEntries
import Slopmud.Proof.RaftLog
import Slopmud.Proof.GroupCaps
import Slopmud.Proof.OidcUsers
import Slopmud.Proof.OidcCodes
import Slopmud.Proof.Nearline
import Slopmud.Proof.Output
import Slopmud.Proof.Manager
import Slopmud.Proof.Throttle
import Slopmud.Proof.Standing
import Slopmud.Proof.OneBan
import Slopmud.Proof.Enforcement
import Slopmud.Proof.GroupNames
import Slopmud.Proof.Restarts
import Slopmud.Proof.Occupants
import Slopmud.Proof.LinkEnd
import Slopmud.Proof.Consent
import Slopmud.Proof.Cadence
import Slopmud.Proof.Framing
import Slopmud.Proof.ReadLines
import Slopmud.Proof.Telnet
import Slopmud.Proof.LineSplits
import Slopmud.Proof.Scrollbacks
import Slopmud.Proof.BanHistory
import Slopmud.Proof.Passwords
import Slopmud.Proof.LoginCaps
import Slopmud.Proof.EmailMarks
import Slopmud.Proof.Exits
import Slopmud.Proof.Gates
import Slopmud.Proof.Refusals
import Slopmud.Proof.Stuns
import Slopmud.Proof.Restoring
import Slopmud.Proof.Upkeep
import Slopmud.Proof.EmailRules
import Slopmud.Proof.Deciding
import Slopmud.Proof.Metrics
import Slopmud.Proof.Assisting
import Slopmud.Proof.Regeneration
import Slopmud.Proof.FullNames
import Slopmud.Proof.Goods
import Slopmud.Proof.Faction
import Slopmud.Proof.Admission
import Slopmud.Proof.OwnSignIns
