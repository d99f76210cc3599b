import Nomina.Web.Accounts

/-!
# Routes

The routes of the management server, the allow-list in front of them, and what a request is directed to. The
handlers that take `Authed` run only for a request with a session; the others are listed in
`Handler.takesAuthed`.
-/

namespace Nomina

open Lib

/-! ## Handlers -/

/-- The handlers that the routes name. -/
inductive Handler
  | health | listAudit | metrics | status | stats | clearStats | mapPoints | mdnsHosts | listInterfaces
  | backupDb | queryLog | clearQueryLog | login | logout | me | changePassword | setup
  | listViews | createView | updateView | deleteView
  | listZones | createZone | getZone | updateZone | deleteZone | listRecords | createRecord
  | exportZone | importZone | getDnssec | enableDnssec | disableDnssec
  | listSecondaries | createSecondary | refreshSecondary | updateRecord | deleteRecord
  | getSettings | putSettings
  | listBlocklists | createBlocklist | blocklistCatalog | refreshAllBlocklists | updateBlocklist
  | deleteBlocklist | refreshBlocklist | listBlockRules | createBlockRule | deleteBlockRule
  | listRewrites | createRewrite | updateRewrite | deleteRewrite
  | listConditional | createConditional | updateConditional | deleteConditional
  | listDyndnsTokens | createDyndnsToken | deleteDyndnsToken
  | listDhcpScopes | createDhcpScope | getDhcpScope | updateDhcpScope | deleteDhcpScope
  | createDhcpReservation | updateDhcpReservation | deleteDhcpReservation
  | listDhcpLeases | deleteDhcpLease | dhcpOptionCatalog
  | nicUpdate | dohGet | dohPost | staticHandler
deriving DecidableEq

/-- Whether the handler has an argument of type `Authed`. -/
def Handler.takesAuthed : Handler → Bool
  | .health | .metrics | .login | .me | .setup | .nicUpdate | .dohGet | .dohPost | .staticHandler => false
  | _ => true

/-! ## Routes -/

/-- A path with its methods. -/
def route (path : String) (methods : List (Method × Handler)) : Str × List (Method × Handler) :=
  (path.toList, methods)

/-- `router`: the paths, and for each the methods with their handlers. -/
def routes : List (Str × List (Method × Handler)) := [
  route "/api/health" [(.GET, .health)],
  route "/api/audit" [(.GET, .listAudit)],
  route "/metrics" [(.GET, .metrics)],
  route "/api/status" [(.GET, .status)],
  route "/api/stats" [(.GET, .stats)],
  route "/api/stats/clear" [(.POST, .clearStats)],
  route "/api/map" [(.GET, .mapPoints)],
  route "/api/mdns" [(.GET, .mdnsHosts)],
  route "/api/interfaces" [(.GET, .listInterfaces)],
  route "/api/backup" [(.GET, .backupDb)],
  route "/api/queries" [(.GET, .queryLog), (.DELETE, .clearQueryLog)],
  route "/api/auth/login" [(.POST, .login)],
  route "/api/auth/logout" [(.POST, .logout)],
  route "/api/auth/me" [(.GET, .me)],
  route "/api/auth/change-password" [(.POST, .changePassword)],
  route "/api/setup" [(.POST, .setup)],
  route "/api/views" [(.GET, .listViews), (.POST, .createView)],
  route "/api/views/{id}" [(.PUT, .updateView), (.DELETE, .deleteView)],
  route "/api/zones" [(.GET, .listZones), (.POST, .createZone)],
  route "/api/zones/{id}" [(.GET, .getZone), (.PUT, .updateZone), (.DELETE, .deleteZone)],
  route "/api/zones/{id}/records" [(.GET, .listRecords), (.POST, .createRecord)],
  route "/api/zones/{id}/export" [(.GET, .exportZone)],
  route "/api/zones/{id}/import" [(.POST, .importZone)],
  route "/api/zones/{id}/dnssec" [(.GET, .getDnssec), (.POST, .enableDnssec), (.DELETE, .disableDnssec)],
  route "/api/secondary-zones" [(.GET, .listSecondaries), (.POST, .createSecondary)],
  route "/api/secondary-zones/{id}/refresh" [(.POST, .refreshSecondary)],
  route "/api/records/{id}" [(.PUT, .updateRecord), (.DELETE, .deleteRecord)],
  route "/api/settings" [(.GET, .getSettings), (.PUT, .putSettings)],
  route "/api/blocklists" [(.GET, .listBlocklists), (.POST, .createBlocklist)],
  route "/api/blocklists/catalog" [(.GET, .blocklistCatalog)],
  route "/api/blocklists/refresh_all" [(.POST, .refreshAllBlocklists)],
  route "/api/blocklists/{id}" [(.PUT, .updateBlocklist), (.DELETE, .deleteBlocklist)],
  route "/api/blocklists/{id}/refresh" [(.POST, .refreshBlocklist)],
  route "/api/rules" [(.GET, .listBlockRules), (.POST, .createBlockRule)],
  route "/api/rules/{id}" [(.DELETE, .deleteBlockRule)],
  route "/api/rewrites" [(.GET, .listRewrites), (.POST, .createRewrite)],
  route "/api/rewrites/{id}" [(.PUT, .updateRewrite), (.DELETE, .deleteRewrite)],
  route "/api/conditional-forwards" [(.GET, .listConditional), (.POST, .createConditional)],
  route "/api/conditional-forwards/{id}" [(.PUT, .updateConditional), (.DELETE, .deleteConditional)],
  route "/api/dyndns/tokens" [(.GET, .listDyndnsTokens), (.POST, .createDyndnsToken)],
  route "/api/dyndns/tokens/{id}" [(.DELETE, .deleteDyndnsToken)],
  route "/api/dhcp/scopes" [(.GET, .listDhcpScopes), (.POST, .createDhcpScope)],
  route "/api/dhcp/scopes/{id}" [(.GET, .getDhcpScope), (.PUT, .updateDhcpScope), (.DELETE, .deleteDhcpScope)],
  route "/api/dhcp/scopes/{id}/reservations" [(.POST, .createDhcpReservation)],
  route "/api/dhcp/reservations/{id}" [(.PUT, .updateDhcpReservation), (.DELETE, .deleteDhcpReservation)],
  route "/api/dhcp/leases" [(.GET, .listDhcpLeases)],
  route "/api/dhcp/leases/{id}" [(.DELETE, .deleteDhcpLease)],
  route "/api/dhcp/option-catalog" [(.GET, .dhcpOptionCatalog)],
  route "/nic/update" [(.GET, .nicUpdate)],
  route "/v3/update" [(.GET, .nicUpdate)],
  route "/dns-query" [(.GET, .dohGet), (.POST, .dohPost)]]

/-- The parts of a path with those of a route: they are the same, but for the parameter, which is any text. -/
def partsMatch : List Str → List Str → Bool
  | [], [] => true
  | part :: route, text :: path =>
    (if part = "{id}".toList then !text.isEmpty else part == text) && partsMatch route path
  | _, _ => false

/-- The text that a route's parameter stands for. -/
def pathParameter (route path : Str) : Option Str :=
  (((split '/' route).zip (split '/' path)).find? fun p => p.1 == "{id}".toList).map Prod.snd

/-- The route of a path. Paths without a parameter come first in the table where two fit. -/
def findRoute (path : Str) : Option (Str × List (Method × Handler)) :=
  routes.find? fun r => partsMatch (split '/' r.1) (split '/' path)

/-- Where a request is directed to. -/
inductive Target
  | handler (h : Handler) (parameter : Option Str)
  | methodNotAllowed
  | fallback
deriving DecidableEq

/-- The target of a method and a path. `HEAD` goes where `GET` goes. -/
def dispatch (method : Method) (path : Str) : Target :=
  match findRoute path with
  | none => .fallback
  | some (route, methods) =>
    match methods.find? fun m => m.1 = if method = .HEAD then .GET else method with
    | some (_, h) => .handler h (pathParameter route path)
    | none => .methodNotAllowed

/-! ## The allow-list -/

/-- A request, with the address of the peer and the path. -/
structure HttpRequest extends ApiRequest where
  peer : IpAddr
  path : Str
deriving DecidableEq

/-- The paths of the DynDNS update, which the allow-list leaves out. -/
def isDyndnsPath (path : Str) : Bool :=
  path == "/nic/update".toList || path == "/v3/update".toList

/-- `ip_guard`: the networks that cannot be read are skipped, and if none is left there is no guard. -/
def ipGuard (K : Crates) (allowNetworks : List Str) (req : HttpRequest) : Bool :=
  let allow := allowNetworks.filterMap K.parseIpNet
  allow.isEmpty || isDyndnsPath req.path || allow.any (·.contains req.peer)

/-! ## What the table says -/

/-- The handler of a path is in the table. -/
lemma mem_routes_of_dispatch {method : Method} {path : Str} {h : Handler} {parameter : Option Str}
    (hdispatch : dispatch method path = .handler h parameter) :
    ∃ r ∈ routes, ((if method = .HEAD then .GET else method), h) ∈ r.2 := by
  unfold dispatch at hdispatch
  split at hdispatch
  · cases hdispatch
  · rename_i route methods hroute
    split at hdispatch
    · rename_i m h' hfind
      cases hdispatch
      have hm := List.find?_some hfind
      rw [decide_eq_true_eq] at hm
      exact ⟨_, List.mem_of_find?_eq_some hroute, hm ▸ List.mem_of_find?_eq_some hfind⟩
    · cases hdispatch

/-- Without `Authed`, the handlers of mutating methods are the login, the setup, and a DNS query. -/
lemma mutating_of_dispatch {method : Method} {path : Str} {h : Handler} {parameter : Option Str}
    (hdispatch : dispatch method path = .handler h parameter) (hmutating : isMutating method = true)
    (hauthed : h.takesAuthed = false) : h = .login ∨ h = .setup ∨ h = .dohPost := by
  obtain ⟨r, hr, hm⟩ := mem_routes_of_dispatch hdispatch
  have htable : ∀ r ∈ routes, ∀ m ∈ r.2, isMutating m.1 = true → m.2.takesAuthed = false →
      m.2 = .login ∨ m.2 = .setup ∨ m.2 = .dohPost := by
    decide
  refine htable r hr _ hm ?_ hauthed
  have hhead : method ≠ .HEAD := by
    rintro rfl
    cases hmutating
  rwa [if_neg hhead]

/-- The DynDNS paths lead to the DynDNS update only. -/
lemma dispatch_of_isDyndnsPath (method : Method) {path : Str} (hpath : isDyndnsPath path = true) :
    dispatch method path = .methodNotAllowed ∨
      dispatch method path = .handler .nicUpdate none ∧ isMutating method = false := by
  have hcases : path = "/nic/update".toList ∨ path = "/v3/update".toList := by
    simpa [isDyndnsPath] using hpath
  have htable : ∀ path ∈ ["/nic/update".toList, "/v3/update".toList], ∀ method ∈
      [Method.GET, .HEAD, .OPTIONS, .POST, .PUT, .PATCH, .DELETE],
      dispatch method path = .methodNotAllowed ∨
        dispatch method path = .handler .nicUpdate none ∧ isMutating method = false := by
    decide +kernel
  have hmethod : method ∈ [Method.GET, .HEAD, .OPTIONS, .POST, .PUT, .PATCH, .DELETE] := by
    cases method <;> decide
  exact htable path (by simpa using hcases) method hmethod

end Nomina
