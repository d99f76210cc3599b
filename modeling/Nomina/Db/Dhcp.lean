import Nomina.Db.Dns

/-!
# Database operations for DHCP

The operations of `db.rs` on DHCP scopes, reservations and leases that the server and the sweeper use,
and the update of a scope.
-/

namespace Nomina

open Lib Sql

namespace Db

/-- `Db::list_dhcp_scopes`: by name. -/
def listDhcpScopes : Sql Tables (List DhcpScope) :=
  select fun t => t.scopes.insertionSort fun s s' => s.name ≤ s'.name

/-- `UPDATE dhcp_scopes SET name = ?`, with the uniqueness of scope names checked. -/
def setScopeName (id : ℕ) (name : Str) : Sql Tables Unit :=
  execute fun t =>
    if t.scopes.any (·.id == id) && t.scopes.any (fun s => s.id != id && s.name == name) then
      .error .constraint
    else .ok ((), t.mapScope id fun s => { s with name })

/-- `Db::update_dhcp_scope`. -/
def updateDhcpScope (id : ℕ) (name : Option Str) (enabled : Option Bool)
    (subnet rangeStart rangeEnd : Option Str) (leaseSecs : Option ℕ) (dnsRegister : Option Bool)
    (dnsZone serverId interface : Option (Option Str)) (options : Option (List DhcpOption)) :
    Sql Tables Unit := do
  whenSome name (setScopeName id)
  whenSome enabled fun enabled => update (·.mapScope id fun s => { s with enabled })
  whenSome subnet fun subnet => update (·.mapScope id fun s => { s with subnet })
  whenSome rangeStart fun rangeStart => update (·.mapScope id fun s => { s with rangeStart })
  whenSome rangeEnd fun rangeEnd => update (·.mapScope id fun s => { s with rangeEnd })
  whenSome leaseSecs fun leaseSecs => update (·.mapScope id fun s => { s with leaseSecs })
  whenSome dnsRegister fun dnsRegister => update (·.mapScope id fun s => { s with dnsRegister })
  whenSome dnsZone fun dnsZone => update (·.mapScope id fun s => { s with dnsZone })
  whenSome serverId fun serverId => update (·.mapScope id fun s => { s with serverId })
  whenSome interface fun interface => update (·.mapScope id fun s => { s with interface })
  whenSome options fun options => update (·.mapScope id fun s => { s with options })

/-- The reservations of a scope, by address text. -/
def reservationsOf (t : Tables) (scopeId : ℕ) : List DhcpReservation :=
  (t.reservations.filter (·.scopeId == scopeId)).insertionSort fun r r' => r.ip ≤ r'.ip

/-- `Db::list_dhcp_reservations`. -/
def listDhcpReservations (scopeId : ℕ) : Sql Tables (List DhcpReservation) :=
  select (reservationsOf · scopeId)

/-- The leases of a scope, by address text. -/
def leasesOf (t : Tables) (scopeId : ℕ) : List DhcpLease :=
  (t.leases.rows.filter (·.scopeId == scopeId)).insertionSort fun l l' => l.ip ≤ l'.ip

/-- `Db::list_dhcp_leases` of one scope. -/
def listDhcpLeases (scopeId : ℕ) : Sql Tables (List DhcpLease) :=
  select (leasesOf · scopeId)

/-- `Db::upsert_dhcp_lease`. The identifier is stored in lowercase. -/
def upsertDhcpLease (scopeId : ℕ) (family : IpFamily) (ip identifier : Str) (hostname : Option Str)
    (startsAt expiresAt : Str) (state : LeaseState) : Sql Tables Unit :=
  let ident := toAsciiLowercase identifier
  let lease : DhcpLease :=
    ⟨0, scopeId, family, ip, ident, hostname, startsAt, expiresAt, state⟩
  execute fun t =>
    if t.scopes.any (·.id == scopeId) then .ok ((), { t with leases := t.leases.upsert lease })
    else .error .constraint

/-- `Db::delete_dhcp_lease`. -/
def deleteDhcpLease (id : ℕ) : Sql Tables Unit :=
  update fun t => { t with leases := t.leases.filter (·.id != id) }

/-- The leases that a sweep leaves: those whose expiry is not before the text `now`. -/
def sweptLeases (now : Str) (t : LeaseTable) : LeaseTable :=
  t.filter fun l => !decide (l.expiresAt < now)

/-- `Db::prune_expired_leases`: the number of rows deleted. -/
def pruneExpiredLeases (now : Str) : Sql Tables ℕ :=
  execute fun t =>
    .ok (t.leases.rows.length - (sweptLeases now t.leases).rows.length,
      { t with leases := sweptLeases now t.leases })

end Db

end Nomina
