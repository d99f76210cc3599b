import Nomina.Lib.Text
import Nomina.Lib.MasterFile
import Nomina.Lib.FieldValues
import Nomina.Lib.Labels
import Nomina.Lib.NameTree
import Nomina.Lib.IpText
import Nomina.Lib.Rfc3339
import Nomina.Lib.Bytes
import Nomina.Lib.Utf8
import Nomina.Lib.Assoc
import Nomina.Lib.Slots
import Nomina.Lib.Journal
import Nomina.Lib.Prog
import Nomina.Lib.Sql
import Nomina.Lib.Update
import Nomina.Lib.Lts
import Nomina.Lib.Refresh
import Nomina.Lib.Rmw
import Nomina.Models
import Nomina.Settings
import Nomina.Store.Lookup
import Nomina.Store.Visibility
import Nomina.Store.Existence
import Nomina.Store.Mirror
import Nomina.Store.Wildcard
import Nomina.Db.Tables
import Nomina.Db.Dns
import Nomina.Db.Dhcp
import Nomina.Store.Build
import Nomina.Store.Chase
import Nomina.Dhcp.Messages
import Nomina.Dhcp.V4
import Nomina.Dhcp.V6
import Nomina.Dhcp.Options
import Nomina.Dhcp.V4Reply
import Nomina.Dhcp.V6Reply
import Nomina.State
import Nomina.Dhcp.Lease
import Nomina.Dhcp.Server
import Nomina.Dhcp.Overrides
import Nomina.Dhcp.Protection
import Nomina.Dhcp.Bindings
import Nomina.Dhcp.Allocation
import Nomina.Dhcp.Scopes
import Nomina.Dhcp.Handling
import Nomina.Dhcp.Retention
import Nomina.Dhcp.Declined
import Nomina.Dhcp.Requests
import Nomina.Dhcp.Sweep
import Nomina.Dhcp.Concurrency
import Nomina.Reload
import Nomina.Dns.Secondary
import Nomina.Stats
import Nomina.Dns.Cache
import Nomina.Dns.Filter
import Nomina.Dns.Dnssec
import Nomina.Dns.Resolve
import Nomina.Dns.Service
import Nomina.Dns.Privacy
import Nomina.Dns.Aging
import Nomina.Dns.LocalNames
import Nomina.Dns.NameCase
import Nomina.Dns.Answers
import Nomina.Dns.Denial
import Nomina.Web.Api
import Nomina.Web.DynDns
import Nomina.Web.Settings
import Nomina.Web.Login
import Nomina.Web.Sessions
import Nomina.Web.Cookies
import Nomina.Web.Accounts
import Nomina.Web.Authentication
import Nomina.Dns.Transfer
import Nomina.Coherence
import Nomina.Operations
import Nomina.Serial
import Nomina.Atomicity
import Nomina.Views
import Nomina.Confinement
import Nomina.Dhcp.Registration
import Nomina.Dns.SecondaryKeys
import Nomina.Dns.AddressUpdate
import Nomina.Tokens
import Nomina.ReadOnly
import Nomina.Dns.Printing
import Nomina.Store.Stream
import Nomina.Replication
import Nomina.Dns.Zonefile
import Nomina.Backup
import Nomina.Dns.FilterRules
import Nomina.Dns.Coverage
import Nomina.Dns.Specificity
import Nomina.Dns.SoaNames
import Nomina.Web.RecordBody
import Nomina.Dns.CacheFile
import Nomina.Dhcp.Renewal
import Nomina.Dns.BlockEntries
import Nomina.Web.Acceptance
import Nomina.Dns.Owners
import Nomina.Dns.Mdns
import Nomina.Dns.Axfr
import Nomina.Dns.Signing
import Nomina.Dns.Balancing
import Nomina.RateSeries
import Nomina.Web.Blocklists
import Nomina.Dhcp.ReverseNames
import Nomina.Web.RecordEditor
import Nomina.Lib.Job
import Nomina.Web.ListRefresh
import Nomina.Web.FilterRows
import Nomina.Web.FilterReload
import Nomina.QueryLog
import Nomina.Web.Audit
