import Nomina.Db.Dhcp
import Nomina.Lib.Update
import Mathlib.Data.List.ReduceOption

/-!
# Failures in the middle of a mutation

`Db::run` hands the connection to a closure without opening a transaction, so a mutation of several
statements that fails leaves what the statements before the failing one did. This module says for
each such mutation of records, zones, views and DHCP scopes at which statements a failure leaves the
tables as they were: when the insert or the first assignment is the one that fails, and when the
assignments that were executed found their values already stored.
-/

namespace Nomina

open Lib Sql

/-! ## The columns of an update -/

/-- The view table. -/
def viewTable : TableOf Tables View :=
  ⟨Tables.views, fun views t => { t with views }, fun _ _ => rfl, fun _ _ _ => rfl, fun _ => rfl⟩

/-- The zone table. -/
def zoneTable : TableOf Tables Zone :=
  ⟨Tables.zones, fun zones t => { t with zones }, fun _ _ => rfl, fun _ _ _ => rfl, fun _ => rfl⟩

/-- The record table. -/
def recordTable : TableOf Tables DnsRecord :=
  ⟨Tables.records, fun records t => { t with records }, fun _ _ => rfl, fun _ _ _ => rfl,
    fun _ => rfl⟩

/-- The table of DHCP scopes. -/
def scopeTable : TableOf Tables DhcpScope :=
  ⟨Tables.scopes, fun scopes t => { t with scopes }, fun _ _ => rfl, fun _ _ _ => rfl, fun _ => rfl⟩

/-- The assignments of `update_view`, in the order of its statements. -/
def viewColumns (name : Option Str) (networks : Option (List Str)) (priority : Option ℤ)
    (countries continents : Option (List Str)) (asns : Option (List ℕ)) :
    List (Option (View → View)) :=
  [name.map fun name v => { v with name },
    networks.map fun networks v => { v with networks },
    priority.map fun priority v => { v with priority },
    countries.map fun countries v => { v with countries },
    continents.map fun continents v => { v with continents },
    asns.map fun asns v => { v with asns }]

/-- The assignments of `update_zone`. -/
def zoneColumns (enabled : Option Bool) (soa : Option Soa) (defaultTtl : Option ℕ) :
    List (Option (Zone → Zone)) :=
  [enabled.map fun enabled z => { z with enabled },
    soa.map fun soa z => { z with soa },
    defaultTtl.map fun defaultTtl z => { z with defaultTtl }]

/-- The assignments of `update_record`. -/
def recordColumns (viewId : Option (Option ℕ)) (name : Option Str) (ttl : Option (Option ℕ))
    (data : Option Str) (enabled : Option Bool) : List (Option (DnsRecord → DnsRecord)) :=
  [viewId.map fun viewId r => { r with viewId },
    name.map fun name r => { r with name },
    ttl.map fun ttl r => { r with ttl },
    data.map fun data r => { r with data },
    enabled.map fun enabled r => { r with enabled }]

/-- The assignments of `update_dhcp_scope`. -/
def scopeColumns (name : Option Str) (enabled : Option Bool)
    (subnet rangeStart rangeEnd : Option Str) (leaseSecs : Option ℕ) (dnsRegister : Option Bool)
    (dnsZone serverId interface : Option (Option Str)) (options : Option (List DhcpOption)) :
    List (Option (DhcpScope → DhcpScope)) :=
  [name.map fun name s => { s with name },
    enabled.map fun enabled s => { s with enabled },
    subnet.map fun subnet s => { s with subnet },
    rangeStart.map fun rangeStart s => { s with rangeStart },
    rangeEnd.map fun rangeEnd s => { s with rangeEnd },
    leaseSecs.map fun leaseSecs s => { s with leaseSecs },
    dnsRegister.map fun dnsRegister s => { s with dnsRegister },
    dnsZone.map fun dnsZone s => { s with dnsZone },
    serverId.map fun serverId s => { s with serverId },
    interface.map fun interface s => { s with interface },
    options.map fun options s => { s with options }]

/-- Optional changes of a row that keep its id and touch different columns. -/
structure Columns {ρ : Type} (id : ρ → ℕ) (cs : List (Option (ρ → ρ))) : Prop where
  keepsId : ∀ c ∈ cs, ∀ f ∈ c, ∀ r, id (f r) = id r
  idem : ∀ c ∈ cs, ∀ f ∈ c, ∀ r, f (f r) = f r
  comm : cs.Pairwise fun c c' => ∀ f ∈ c, ∀ g ∈ c', ∀ r, f (g r) = g (f r)

section Columns

variable {ρ : Type} {id : ρ → ℕ} {cs : List (Option (ρ → ρ))}

lemma Columns.independent (h : Columns id cs) : Independent cs.reduceOption := by
  constructor
  · intro f hf r
    exact h.idem (some f) (List.reduceOption_mem_iff.mp hf) f rfl r
  · unfold List.reduceOption
    refine List.pairwise_filterMap.mpr (h.comm.imp ?_)
    intro c c' hcc f hf g hg r
    exact hcc f hf g hg r

end Columns

lemma columns_view (name : Option Str) (networks : Option (List Str)) (priority : Option ℤ)
    (countries continents : Option (List Str)) (asns : Option (List ℕ)) :
    Columns View.id (viewColumns name networks priority countries continents asns) := by
  unfold viewColumns
  constructor <;> simp only [List.pairwise_cons, List.Pairwise.nil, List.forall_mem_cons,
    List.not_mem_nil, Option.forall_mem_map, false_imp_iff, implies_true, and_self]

lemma columns_zone (enabled : Option Bool) (soa : Option Soa) (defaultTtl : Option ℕ) :
    Columns Zone.id (zoneColumns enabled soa defaultTtl) := by
  unfold zoneColumns
  constructor <;> simp only [List.pairwise_cons, List.Pairwise.nil, List.forall_mem_cons,
    List.not_mem_nil, Option.forall_mem_map, false_imp_iff, implies_true, and_self]

lemma columns_record (viewId : Option (Option ℕ)) (name : Option Str) (ttl : Option (Option ℕ))
    (data : Option Str) (enabled : Option Bool) :
    Columns DnsRecord.id (recordColumns viewId name ttl data enabled) := by
  unfold recordColumns
  constructor <;> simp only [List.pairwise_cons, List.Pairwise.nil, List.forall_mem_cons,
    List.not_mem_nil, Option.forall_mem_map, false_imp_iff, implies_true, and_self]

lemma columns_scope (name : Option Str) (enabled : Option Bool)
    (subnet rangeStart rangeEnd : Option Str) (leaseSecs : Option ℕ) (dnsRegister : Option Bool)
    (dnsZone serverId interface : Option (Option Str)) (options : Option (List DhcpOption)) :
    Columns DhcpScope.id (scopeColumns name enabled subnet rangeStart rangeEnd leaseSecs dnsRegister
      dnsZone serverId interface options) := by
  unfold scopeColumns
  constructor <;> simp only [List.pairwise_cons, List.Pairwise.nil, List.forall_mem_cons,
    List.not_mem_nil, Option.forall_mem_map, false_imp_iff, implies_true, and_self]

/-! ## Mutations as runs of updates -/

section Programs

variable {α ρ : Type}

/-- One more optional assignment before a run of updates. -/
lemma updates_whenSome {v : Option α} {F : α → ρ → ρ} {U : (ρ → ρ) → Tables → Tables}
    {cs : List (Option (ρ → ρ))} {gs : List (Tables → Tables)} {m : Sql Tables Unit}
    (h : updates (cs.reduceOption.map U ++ gs) = m) :
    updates ((v.map F :: cs).reduceOption.map U ++ gs) =
      (do Db.whenSome v fun a => update (U (F a)); m) := by
  subst h
  cases v <;> rfl

/-- The last optional assignment. -/
lemma updates_whenSome_last {v : Option α} {F : α → ρ → ρ} {U : (ρ → ρ) → Tables → Tables} :
    updates ([v.map F].reduceOption.map U ++ []) = Db.whenSome v fun a => update (U (F a)) := by
  cases v with
  | none => rfl
  | some a => exact bind_pure_unit

end Programs

/-- Whether another view has the name that a view is given. -/
def viewNameTaken (t : Tables) (id : ℕ) (name : Option Str) : Bool :=
  name.any fun name => (t.view? id).isSome && t.views.any fun v => v.id != id && v.name == name

/-- Whether another scope has the name that a scope is given. -/
def scopeNameTaken (t : Tables) (id : ℕ) (name : Option Str) : Bool :=
  name.any fun name =>
    t.scopes.any (·.id == id) && t.scopes.any fun s => s.id != id && s.name == name

/-- Whether the view that a record is given does not exist. -/
def viewMissing (t : Tables) (id : ℕ) (viewId : Option (Option ℕ)) : Bool :=
  viewId.any fun viewId => (t.record? id).isSome && !t.viewRefOk viewId

/-- The assignments of a program, as updates of the rows with an id. -/
def assignments {ρ : Type} (T : TableOf Tables ρ) (key : ρ → ℕ) (id : ℕ)
    (cs : List (Option (ρ → ρ))) : List (Tables → Tables) :=
  cs.reduceOption.map (T.update fun r => key r = id)

/-- Without a conflict of names, `update_view` is a run of updates. -/
lemma run_updateView {id : ℕ} {name : Option Str} {networks : Option (List Str)}
    {priority : Option ℤ} {countries continents : Option (List Str)} {asns : Option (List ℕ)}
    {c : Conn Tables} (h : viewNameTaken c.tables id name = false) :
    Db.updateView id name networks priority countries continents asns c =
      updates (assignments viewTable View.id id
        (viewColumns name networks priority countries continents asns) ++ []) c := by
  have hrun : updates (assignments viewTable View.id id
      (viewColumns name networks priority countries continents asns) ++ []) = _ :=
    updates_whenSome <| updates_whenSome <| updates_whenSome <| updates_whenSome <|
      updates_whenSome updates_whenSome_last
  rw [hrun]
  refine EStateM.run_bind_congr ?_ _
  cases name with
  | none => rfl
  | some name =>
    change Db.setViewName id name c = update _ c
    unfold Db.setViewName
    exact execute_eq_update (if_neg (Bool.eq_false_iff.mp h))

/-- Without a conflict of names, `update_dhcp_scope` is a run of updates. -/
lemma run_updateDhcpScope {id : ℕ} {name : Option Str} {enabled : Option Bool}
    {subnet rangeStart rangeEnd : Option Str} {leaseSecs : Option ℕ} {dnsRegister : Option Bool}
    {dnsZone serverId interface : Option (Option Str)} {options : Option (List DhcpOption)}
    {c : Conn Tables} (h : scopeNameTaken c.tables id name = false) :
    Db.updateDhcpScope id name enabled subnet rangeStart rangeEnd leaseSecs dnsRegister dnsZone
        serverId interface options c =
      updates (assignments scopeTable DhcpScope.id id
        (scopeColumns name enabled subnet rangeStart rangeEnd leaseSecs dnsRegister dnsZone serverId
          interface options) ++ []) c := by
  have hrun : updates (assignments scopeTable DhcpScope.id id
      (scopeColumns name enabled subnet rangeStart rangeEnd leaseSecs dnsRegister dnsZone serverId
        interface options) ++ []) = _ :=
    updates_whenSome <| updates_whenSome <| updates_whenSome <| updates_whenSome <|
      updates_whenSome <| updates_whenSome <| updates_whenSome <| updates_whenSome <|
      updates_whenSome <| updates_whenSome updates_whenSome_last
  rw [hrun]
  refine EStateM.run_bind_congr ?_ _
  cases name with
  | none => rfl
  | some name =>
    change Db.setScopeName id name c = update _ c
    unfold Db.setScopeName
    exact execute_eq_update (if_neg (Bool.eq_false_iff.mp h))

/-- `update_zone` is a run of updates that ends with the serial. -/
lemma updateZone_eq (id : ℕ) (enabled : Option Bool) (soa : Option Soa) (defaultTtl : Option ℕ) :
    Db.updateZone id enabled soa defaultTtl =
      updates (assignments zoneTable Zone.id id (zoneColumns enabled soa defaultTtl) ++
        [(·.bump id)]) := by
  have hbump : updates ((([] : List (Option (Zone → Zone))).reduceOption.map
      (zoneTable.update fun z => z.id = id)) ++ [(·.bump id)]) = Db.bumpSerial id :=
    bind_pure_unit
  exact (updates_whenSome (updates_whenSome (updates_whenSome hbump))).symm

/-- The statements of `update_record` up to the one that sets `updated_at`. -/
def Db.stampRecord (id : ℕ) (viewId : Option (Option ℕ)) (name : Option Str)
    (ttl : Option (Option ℕ)) (data : Option Str) (enabled : Option Bool) : Sql Tables Unit := do
  whenSome viewId (setRecordView id)
  whenSome name fun name => update (·.mapRecord id fun r => { r with name })
  whenSome ttl fun ttl => update (·.mapRecord id fun r => { r with ttl })
  whenSome data fun data => update (·.mapRecord id fun r => { r with data })
  whenSome enabled fun enabled => update (·.mapRecord id fun r => { r with enabled })
  update fun t => t

/-- The statements of `update_record` after `updated_at`. -/
def Db.bumpZoneOf (id : ℕ) : Sql Tables Unit := do
  let zoneId ← selectFirst fun t => (t.record? id).map DnsRecord.zoneId
  bumpSerial zoneId

lemma updateRecord_eq (id : ℕ) (viewId : Option (Option ℕ)) (name : Option Str)
    (ttl : Option (Option ℕ)) (data : Option Str) (enabled : Option Bool) :
    Db.updateRecord id viewId name ttl data enabled = (do
      Db.stampRecord id viewId name ttl data enabled
      Db.bumpZoneOf id) := by
  unfold Db.updateRecord Db.stampRecord Db.bumpZoneOf
  simp only [bind_assoc]

/-- With a view that exists, the statements up to `updated_at` are a run of updates. -/
lemma run_stampRecord {id : ℕ} {viewId : Option (Option ℕ)} {name : Option Str}
    {ttl : Option (Option ℕ)} {data : Option Str} {enabled : Option Bool} {c : Conn Tables}
    (h : viewMissing c.tables id viewId = false) :
    Db.stampRecord id viewId name ttl data enabled c =
      updates (assignments recordTable DnsRecord.id id
        (recordColumns viewId name ttl data enabled) ++ [fun t => t]) c := by
  have hstamp : updates ((([] : List (Option (DnsRecord → DnsRecord))).reduceOption.map
      (recordTable.update fun r => r.id = id)) ++ [fun t => t]) = update fun t => t :=
    bind_pure_unit
  have hrun : updates (assignments recordTable DnsRecord.id id
      (recordColumns viewId name ttl data enabled) ++ [fun t => t]) = _ :=
    updates_whenSome <| updates_whenSome <| updates_whenSome <| updates_whenSome <|
      updates_whenSome hstamp
  rw [hrun]
  refine EStateM.run_bind_congr ?_ _
  cases viewId with
  | none => rfl
  | some viewId =>
    change Db.setRecordView id viewId c = update _ c
    unfold Db.setRecordView
    exact execute_eq_update (if_neg (Bool.eq_false_iff.mp h))

/-! ## Refused updates -/

section Refused

variable {ρ : Type} {key : ρ → ℕ} {cs : List (Option (ρ → ρ))}

/-- The rows with the id already hold the first `k` of the values that are given. -/
def StoredUpTo (rows : List ρ) (key : ρ → ℕ) (id : ℕ) (cs : List (Option (ρ → ρ))) (k : ℕ) : Prop :=
  ∀ f ∈ cs.reduceOption.take k, ∀ r ∈ rows, key r = id → f r = r

/-- The first assignments of a program change nothing just when their values are stored already. -/
lemma foldl_assignments_iff (T : TableOf Tables ρ) (id : ℕ) (hcs : Columns key cs)
    (gs : List (Tables → Tables)) {k : ℕ} (hk : k ≤ cs.reduceOption.length) (t : Tables) :
    ((assignments T key id cs ++ gs).take k).foldl (fun t f => f t) t = t ↔
      StoredUpTo (T.rows t) key id cs k := by
  have htake : (assignments T key id cs ++ gs).take k =
      (cs.reduceOption.take k).map (T.update fun r => key r = id) := by
    unfold assignments
    rw [List.take_append_of_le_length (by simpa using hk), List.map_take]
  rw [htake, List.foldl_map]
  refine T.foldl_update_eq_self_iff (hcs.independent.sublist (List.take_sublist k _)) ?_ t
  intro f hf r hr
  have hmem := List.reduceOption_mem_iff.mp (List.mem_of_mem_take hf)
  exact (hcs.keepsId (some f) hmem f rfl r).trans hr

/-- A run of assignments with at most one more update leaves the tables alone in case of an error,
just when the values before the first refusal are stored already. -/
lemma updates_unchanged_iff (T : TableOf Tables ρ) (id : ℕ) (hcs : Columns key cs)
    {gs : List (Tables → Tables)} (hgs : gs.length ≤ 1) (c : Conn Tables) :
    (∀ e, (updates (assignments T key id cs ++ gs)).result c = .error e →
        ((updates (assignments T key id cs ++ gs)).after c).tables = c.tables) ↔
      ∀ k, firstRefused c = some k → k < cs.reduceOption.length + gs.length →
        StoredUpTo (T.rows c.tables) key id cs k := by
  have hlen : (assignments T key id cs ++ gs).length = cs.reduceOption.length + gs.length := by
    simp [assignments]
  rcases updates_stops_or (assignments T key id cs ++ gs) c with ⟨k, hlt, hstops⟩ | hpasses
  · rw [hlen] at hlt
    rw [hstops.tables, hstops.first, foldl_assignments_iff _ _ hcs _ (by omega)]
    constructor
    · rintro h j hj -
      cases hj
      obtain ⟨e, he⟩ := hstops.error
      exact h e he
    · intro h _ _
      exact h k rfl hlt
  · constructor
    · intro _ k hk hlt
      have hle := hpasses.le_of_first hk
      omega
    · intro _ e he
      cases hpasses.result.symm.trans he

end Refused

/-! ## Mutations -/

/-- A call of an operation that runs several statements. -/
inductive Mutation
  | createRecord (zoneId : ℕ) (viewId : Option ℕ) (name rtype : Str) (ttl : Option ℕ) (data : Str)
  | updateRecord (id : ℕ) (viewId : Option (Option ℕ)) (name : Option Str)
      (ttl : Option (Option ℕ)) (data : Option Str) (enabled : Option Bool)
  | deleteRecord (id : ℕ)
  | updateZone (id : ℕ) (enabled : Option Bool) (soa : Option Soa) (defaultTtl : Option ℕ)
  | updateView (id : ℕ) (name : Option Str) (networks : Option (List Str)) (priority : Option ℤ)
      (countries continents : Option (List Str)) (asns : Option (List ℕ))
  | updateDhcpScope (id : ℕ) (name : Option Str) (enabled : Option Bool)
      (subnet rangeStart rangeEnd : Option Str) (leaseSecs : Option ℕ) (dnsRegister : Option Bool)
      (dnsZone serverId interface : Option (Option Str)) (options : Option (List DhcpOption))

namespace Mutation

/-- The statements of a call. -/
def run : Mutation → Sql Tables Unit
  | .createRecord zoneId viewId name rtype ttl data => do
    let _ ← Db.createRecord zoneId viewId name rtype ttl data
    pure ()
  | .updateRecord id viewId name ttl data enabled =>
    Db.updateRecord id viewId name ttl data enabled
  | .deleteRecord id => do
    let _ ← Db.deleteRecord id
    pure ()
  | .updateZone id enabled soa defaultTtl => Db.updateZone id enabled soa defaultTtl
  | .updateView id name networks priority countries continents asns =>
    Db.updateView id name networks priority countries continents asns
  | .updateDhcpScope id name enabled subnet rangeStart rangeEnd leaseSecs dnsRegister dnsZone
      serverId interface options =>
    Db.updateDhcpScope id name enabled subnet rangeStart rangeEnd leaseSecs dnsRegister dnsZone
      serverId interface options

/-- The call sets the `updated_at` of a record row: the one statement of these calls whose column is
not among those of `Tables`. -/
def Restamps : Mutation → Conn Tables → Prop
  | .updateRecord id viewId name ttl data enabled, c =>
    (Db.stampRecord id viewId name ttl data enabled).result c = .ok () ∧
      ∃ r ∈ c.tables.records, r.id = id
  | _, _ => False

/-- A call that fails leaves the tables as they were. -/
def Atomic (m : Mutation) (c : Conn Tables) : Prop :=
  ∀ e, m.run.result c = .error e → (m.run.after c).tables = c.tables ∧ ¬ m.Restamps c

/-- The first statement that the database refuses, if it is one of the call's, comes before the call
has changed anything: an insert or a delete has not been executed, and the assignments that have been
found their values already stored. A value that violates a constraint is found by the first
statement. -/
def RefusedEarly : Mutation → Conn Tables → Prop
  | .createRecord zoneId viewId _ _ _ _, c =>
    ((c.tables.zone? zoneId).isSome && c.tables.viewRefOk viewId) = true → firstRefused c ≠ some 1
  | .updateRecord id viewId name ttl data enabled, c =>
    viewMissing c.tables id viewId = false →
      ∀ k, firstRefused c = some k →
        k < (recordColumns viewId name ttl data enabled).reduceOption.length + 3 →
          StoredUpTo c.tables.records DnsRecord.id id (recordColumns viewId name ttl data enabled) k ∧
            ((recordColumns viewId name ttl data enabled).reduceOption.length < k →
              ∀ r ∈ c.tables.records, r.id ≠ id)
  | .deleteRecord id, c => (c.tables.record? id).isSome → firstRefused c ≠ some 2
  | .updateZone id enabled soa defaultTtl, c =>
    ∀ k, firstRefused c = some k →
      k < (zoneColumns enabled soa defaultTtl).reduceOption.length + 1 →
        StoredUpTo c.tables.zones Zone.id id (zoneColumns enabled soa defaultTtl) k
  | .updateView id name networks priority countries continents asns, c =>
    viewNameTaken c.tables id name = false →
      ∀ k, firstRefused c = some k →
        k < (viewColumns name networks priority countries continents asns).reduceOption.length →
          StoredUpTo c.tables.views View.id id
            (viewColumns name networks priority countries continents asns) k
  | .updateDhcpScope id name enabled subnet rangeStart rangeEnd leaseSecs dnsRegister dnsZone
      serverId interface options, c =>
    scopeNameTaken c.tables id name = false →
      ∀ k, firstRefused c = some k →
        k < (scopeColumns name enabled subnet rangeStart rangeEnd leaseSecs dnsRegister dnsZone
            serverId interface options).reduceOption.length →
          StoredUpTo c.tables.scopes DhcpScope.id id
            (scopeColumns name enabled subnet rangeStart rangeEnd leaseSecs dnsRegister dnsZone
              serverId interface options) k

section Cases

variable {c : Conn Tables}

/-- A call that sets no timestamp is atomic when its errors leave the tables alone. -/
lemma atomic_iff {m : Mutation} (hstamp : ¬ m.Restamps c) :
    m.Atomic c ↔ ∀ e, m.run.result c = .error e → (m.run.after c).tables = c.tables :=
  forall₂_congr fun _ _ => and_iff_left hstamp

/-- A call whose run leaves the tables alone is atomic if it sets no timestamp. -/
lemma atomic_of_tables {m : Mutation} (h : (m.run.after c).tables = c.tables)
    (hstamp : ¬ m.Restamps c) : m.Atomic c :=
  fun _ _ => ⟨h, hstamp⟩

/-- A call that returns is atomic. -/
lemma atomic_of_ok {m : Mutation} (h : m.run.result c = .ok ()) : m.Atomic c := by
  intro e he
  cases h.symm.trans he

/-- An inserted row is a change. -/
lemma insertRecord_ok {t t' : Tables} {r : DnsRecord} {i : ℕ} (h : t.insertRecord r = .ok (i, t')) :
    ((t.zone? r.zoneId).isSome && t.viewRefOk r.viewId) = true ∧ t' ≠ t := by
  unfold Tables.insertRecord at h
  split at h
  · rename_i hok
    refine ⟨hok, ?_⟩
    cases h
    intro heq
    have hlen := congrArg (fun u : Tables => u.records.length) heq
    simp at hlen
  · cases h

/-- A call whose run stops at a refusal that leaves other contents is not atomic. -/
lemma not_atomic_of_stops {m : Mutation} {k : ℕ} {t : Tables} (h : Stops m.run c k t)
    (hne : t ≠ c.tables) : ¬ m.Atomic c := by
  obtain ⟨e, he⟩ := h.error
  intro hatomic
  exact hne (h.tables.symm.trans (hatomic e he).1)

lemma atomic_createRecord_iff (zoneId : ℕ) (viewId : Option ℕ) (name rtype : Str) (ttl : Option ℕ)
    (data : Str) : (createRecord zoneId viewId name rtype ttl data).Atomic c ↔
      (createRecord zoneId viewId name rtype ttl data).RefusedEarly c := by
  have hrun : (createRecord zoneId viewId name rtype ttl data).run = (do
      let _ ← execute (·.insertRecord ⟨0, zoneId, viewId, name, rtype, ttl, data, true⟩)
      Db.bumpSerial zoneId) := by
    unfold run Db.createRecord
    simp only [bind_assoc, pure_bind, bind_pure_unit]
  have hstamp : ¬ (createRecord zoneId viewId name rtype ttl data).Restamps c := fun h => h
  rcases statement_stops_or .write
    (fun t => t.insertRecord ⟨0, zoneId, viewId, name, rtype, ttl, data, true⟩) c with
    hstops | ⟨err, hf, hrejected⟩ | ⟨i, t, hf, hpasses⟩
  · have hstops' := hstops.bind fun _ => Db.bumpSerial zoneId
    have hatomic := atomic_of_tables (hrun ▸ hstops'.tables) hstamp
    refine iff_of_true hatomic ?_
    intro _ h
    cases hstops.first.symm.trans h
  · have hall := hrejected.bind fun _ => Db.bumpSerial zoneId
    refine iff_of_true (atomic_of_tables (hrun ▸ hall.2) hstamp) ?_
    intro hok
    unfold Tables.insertRecord at hf
    rw [if_pos hok] at hf
    cases hf
  · obtain ⟨hok, hne⟩ := insertRecord_ok hf
    rcases update_stops_or (·.bump zoneId) (EStateM.after (statement _ _) c) with hbump | hbump
    · have hstops := hpasses.bind_stops (f := fun _ => Db.bumpSerial zoneId) hbump
      rw [hpasses.tables] at hstops
      refine iff_of_false (not_atomic_of_stops (hrun ▸ hstops) hne) ?_
      intro h
      exact h hok hstops.first
    · have hboth := hpasses.bind (f := fun _ => Db.bumpSerial zoneId) hbump
      refine iff_of_true (atomic_of_ok (hrun ▸ hboth.result)) ?_
      intro _ h
      have hle := hboth.le_of_first h
      omega

/-- A deleted row is a change. -/
lemma filter_records_ne {t : Tables} {id : ℕ} (h : (t.record? id).isSome) :
    { t with records := t.records.filter (·.id != id) } ≠ t := by
  obtain ⟨r, hr⟩ := Option.isSome_iff_exists.mp h
  have hid : r.id = id := by simpa using List.find?_some hr
  intro heq
  have hmem : r ∈ t.records.filter (·.id != id) := by
    have hrows : t.records.filter (·.id != id) = t.records := congrArg Tables.records heq
    rw [hrows]
    exact List.mem_of_find?_eq_some hr
  simp [hid] at hmem

/-- The statements of `delete_record` after the row was looked up. -/
def deleteFrom (id : ℕ) : Option ℕ → Sql Tables Unit
  | none => pure ()
  | some zoneId =>
    updates [fun t => { t with records := t.records.filter (·.id != id) }, (·.bump zoneId)]

lemma atomic_deleteRecord_iff (id : ℕ) : (deleteRecord id).Atomic c ↔
    (deleteRecord id).RefusedEarly c := by
  have hrun : (deleteRecord id).run =
      select (fun t => (t.record? id).map DnsRecord.zoneId) >>= deleteFrom id := by
    unfold run Db.deleteRecord
    simp only [bind_assoc]
    congr 1
    funext zoneId
    cases zoneId with
    | none => rfl
    | some zoneId =>
      simp only [deleteFrom, updates, bind_assoc, pure_bind, bind_pure_unit]
      rfl
  have hstamp : ¬ (deleteRecord id).Restamps c := fun h => h
  rcases statement_stops_or .read
    (fun t : Tables => .ok ((t.record? id).map DnsRecord.zoneId, t)) c with
    hstops | ⟨err, hf, -⟩ | ⟨zoneId, t, hf, hfound⟩
  · have hall := hstops.bind (deleteFrom id)
    refine iff_of_true (atomic_of_tables (hrun ▸ hall.tables) hstamp) ?_
    intro _ h
    cases hstops.first.symm.trans h
  · cases hf
  cases hf
  cases hrow : c.tables.record? id with
  | none =>
    rw [hrow] at hfound
    have hall := hfound.bind (f := deleteFrom id) (Passes.pure () _)
    refine iff_of_true (atomic_of_ok (hrun ▸ hall.result)) ?_
    intro hsome
    rw [hrow] at hsome
    cases hsome
  | some r =>
    have hsome : (c.tables.record? id).isSome := by simp [hrow]
    rw [hrow] at hfound
    rcases updates_stops_or [fun t : Tables => { t with records := t.records.filter (·.id != id) },
      fun t => t.bump r.zoneId] (EStateM.after (statement _ _) c) with ⟨k, hk, hstops⟩ | hpasses
    · have hall := hfound.bind_stops (f := deleteFrom id) hstops
      rw [hfound.tables] at hall
      rcases k with _ | _ | k
      · refine iff_of_true (atomic_of_tables (hrun ▸ hall.tables) hstamp) ?_
        intro _ h
        cases hall.first.symm.trans h
      · refine iff_of_false (not_atomic_of_stops (hrun ▸ hall) (filter_records_ne hsome)) ?_
        intro h
        exact h hsome hall.first
      · simp only [List.length_cons, List.length_nil] at hk
        omega
    · have hall := hfound.bind (f := deleteFrom id) hpasses
      refine iff_of_true (atomic_of_ok (hrun ▸ hall.result)) ?_
      intro _ h
      have hle := hall.le_of_first h
      simp at hle

lemma atomic_updateZone_iff (id : ℕ) (enabled : Option Bool) (soa : Option Soa)
    (defaultTtl : Option ℕ) : (updateZone id enabled soa defaultTtl).Atomic c ↔
      (updateZone id enabled soa defaultTtl).RefusedEarly c := by
  have hgs : [fun t : Tables => t.bump id].length ≤ 1 := le_refl 1
  have hiff := updates_unchanged_iff zoneTable id (columns_zone enabled soa defaultTtl) hgs c
  rw [← updateZone_eq] at hiff
  refine (atomic_iff ?_).trans hiff
  exact fun h => h

lemma rejected_setViewName {id : ℕ} {name : Option Str}
    (h : viewNameTaken c.tables id name = true) :
    Rejected (Db.whenSome name (Db.setViewName id)) c := by
  cases name with
  | none => cases h
  | some name =>
    change Rejected (Db.setViewName id name) c
    unfold Db.setViewName execute
    exact statement_rejected (if_pos h)

lemma rejected_setScopeName {id : ℕ} {name : Option Str}
    (h : scopeNameTaken c.tables id name = true) :
    Rejected (Db.whenSome name (Db.setScopeName id)) c := by
  cases name with
  | none => cases h
  | some name =>
    change Rejected (Db.setScopeName id name) c
    unfold Db.setScopeName execute
    exact statement_rejected (if_pos h)

lemma rejected_setRecordView {id : ℕ} {viewId : Option (Option ℕ)}
    (h : viewMissing c.tables id viewId = true) :
    Rejected (Db.whenSome viewId (Db.setRecordView id)) c := by
  cases viewId with
  | none => cases h
  | some viewId =>
    change Rejected (Db.setRecordView id viewId) c
    unfold Db.setRecordView execute
    exact statement_rejected (if_pos h)

lemma atomic_updateView_iff (id : ℕ) (name : Option Str) (networks : Option (List Str))
    (priority : Option ℤ) (countries continents : Option (List Str)) (asns : Option (List ℕ)) :
    (updateView id name networks priority countries continents asns).Atomic c ↔
      (updateView id name networks priority countries continents asns).RefusedEarly c := by
  cases htaken : viewNameTaken c.tables id name with
  | true =>
    obtain ⟨-, htables⟩ := (rejected_setViewName htaken).bind _
    refine iff_of_true (atomic_of_tables htables fun h => h) ?_
    intro h
    cases htaken.symm.trans h
  | false =>
    have hgs : ([] : List (Tables → Tables)).length ≤ 1 := Nat.zero_le 1
    have hiff := updates_unchanged_iff viewTable id
      (columns_view name networks priority countries continents asns) hgs c
    rw [← EStateM.result_congr (run_updateView htaken),
      ← EStateM.after_congr (run_updateView htaken)] at hiff
    refine (atomic_iff ?_).trans (hiff.trans ?_)
    · exact fun h => h
    · exact ⟨fun h _ => h, fun h => h htaken⟩

lemma atomic_updateDhcpScope_iff (id : ℕ) (name : Option Str) (enabled : Option Bool)
    (subnet rangeStart rangeEnd : Option Str) (leaseSecs : Option ℕ) (dnsRegister : Option Bool)
    (dnsZone serverId interface : Option (Option Str)) (options : Option (List DhcpOption)) :
    (updateDhcpScope id name enabled subnet rangeStart rangeEnd leaseSecs dnsRegister dnsZone
        serverId interface options).Atomic c ↔
      (updateDhcpScope id name enabled subnet rangeStart rangeEnd leaseSecs dnsRegister dnsZone
        serverId interface options).RefusedEarly c := by
  cases htaken : scopeNameTaken c.tables id name with
  | true =>
    obtain ⟨-, htables⟩ := (rejected_setScopeName htaken).bind _
    refine iff_of_true (atomic_of_tables htables fun h => h) ?_
    intro h
    cases htaken.symm.trans h
  | false =>
    have hgs : ([] : List (Tables → Tables)).length ≤ 1 := Nat.zero_le 1
    have hiff := updates_unchanged_iff scopeTable id (columns_scope name enabled subnet rangeStart
      rangeEnd leaseSecs dnsRegister dnsZone serverId interface options) hgs c
    rw [← EStateM.result_congr (run_updateDhcpScope htaken),
      ← EStateM.after_congr (run_updateDhcpScope htaken)] at hiff
    refine (atomic_iff ?_).trans (hiff.trans ?_)
    · exact fun h => h
    · exact ⟨fun h _ => h, fun h => h htaken⟩

/-- Statements up to `updated_at` that are refused: the call is atomic just when the values assigned
so far are stored already. -/
lemma atomic_of_stampRecord_stops {id : ℕ} {viewId : Option (Option ℕ)} {name : Option Str}
    {ttl : Option (Option ℕ)} {data : Option Str} {enabled : Option Bool} {k : ℕ} {t : Tables}
    (h : Stops (Db.stampRecord id viewId name ttl data enabled) c k t) :
    (updateRecord id viewId name ttl data enabled).Atomic c ↔ t = c.tables := by
  have hall := h.bind fun _ => Db.bumpZoneOf id
  rw [← updateRecord_eq] at hall
  have hstamp : ¬ (updateRecord id viewId name ttl data enabled).Restamps c := by
    rintro ⟨hok, -⟩
    obtain ⟨e, he⟩ := h.error
    cases he.symm.trans hok
  obtain ⟨e, he⟩ := hall.error
  rw [atomic_iff hstamp]
  constructor
  · intro hatomic
    exact hall.tables.symm.trans (hatomic e he)
  · rintro rfl e' -
    exact hall.tables

/-- There is no row with an id. -/
lemma record?_eq_none_iff {t : Tables} {id : ℕ} :
    t.record? id = none ↔ ∀ r ∈ t.records, r.id ≠ id := by
  unfold Tables.record?
  simp [List.find?_eq_none]

/-- Once `updated_at` is set, the call is atomic just when it gets through or the row does not
exist. -/
lemma atomic_of_stampRecord_passes {id : ℕ} {viewId : Option (Option ℕ)} {name : Option Str}
    {ttl : Option (Option ℕ)} {data : Option Str} {enabled : Option Bool} {n : ℕ} {t : Tables}
    (h : Passes (Db.stampRecord id viewId name ttl data enabled) c n () t)
    (hrow : t.record? id = none ↔ c.tables.record? id = none)
    (hsame : c.tables.record? id = none → t = c.tables) :
    (updateRecord id viewId name ttl data enabled).Atomic c ↔
      (∀ k, firstRefused c = some k → k < n + 2 → c.tables.record? id = none) := by
  have hrun : (updateRecord id viewId name ttl data enabled).run = _ :=
    updateRecord_eq id viewId name ttl data enabled
  have hstamp : (updateRecord id viewId name ttl data enabled).Restamps c ↔
      ¬ c.tables.record? id = none := by
    rw [record?_eq_none_iff]
    push Not
    exact and_iff_right h.result
  -- A refusal after `updated_at` is an error that keeps the timestamp of the row, if there is one.
  have hstops : ∀ k, Stops (updateRecord id viewId name ttl data enabled).run c k t →
      k < n + 2 → ((updateRecord id viewId name ttl data enabled).Atomic c ↔
        (∀ k, firstRefused c = some k → k < n + 2 → c.tables.record? id = none)) := by
    intro k hk hlt
    obtain ⟨e, he⟩ := hk.error
    constructor
    · intro hatomic _ _ _
      by_contra hne
      exact (hatomic e he).2 (hstamp.mpr hne)
    · intro hnone
      have hmissing := hnone k hk.first hlt
      refine atomic_of_tables (hk.tables.trans (hsame hmissing)) ?_
      rw [hstamp]
      exact not_not_intro hmissing
  rcases selectFirst_stops_or (fun u : Tables => (u.record? id).map DnsRecord.zoneId)
      (EStateM.after (Db.stampRecord id viewId name ttl data enabled) c) with
    hlook | ⟨hnone, hlook⟩ | ⟨zoneId, hsome, hlook⟩
  · have hall := h.bind_stops (f := fun _ => Db.bumpZoneOf id) (hlook.bind _)
    rw [← hrun, h.tables] at hall
    exact hstops _ hall (by omega)
  · rw [h.tables, Option.map_eq_none_iff, hrow] at hnone
    refine iff_of_true (atomic_of_tables ?_ ?_) fun _ _ _ => hnone
    · rw [hrun, EStateM.after_bind, h.result]
      exact (hlook.bind _).2.trans (h.tables.trans (hsame hnone))
    · rw [hstamp]
      exact not_not_intro hnone
  · rcases update_stops_or (fun u : Tables => u.bump zoneId) (EStateM.after (selectFirst _) _) with
      hbump | hbump
    · have hall := h.bind_stops (f := fun _ => Db.bumpZoneOf id)
        (hlook.bind_stops (f := Db.bumpSerial) hbump)
      rw [← hrun, hlook.tables, h.tables] at hall
      exact hstops _ hall (by omega)
    · have hall := h.bind (f := fun _ => Db.bumpZoneOf id)
        (hlook.bind (f := Db.bumpSerial) hbump)
      rw [← hrun] at hall
      refine iff_of_true (atomic_of_ok hall.result) ?_
      intro k hk hlt
      have hle := hall.le_of_first hk
      omega

/-- The assignments of `update_record` keep the ids of the rows. -/
lemma ids_assignments (id : ℕ) {fs : List (DnsRecord → DnsRecord)}
    (hfs : ∀ f ∈ fs, ∀ r, (f r).id = r.id) (t : Tables) :
    ((fs.map (recordTable.update fun r => r.id = id)).foldl (fun t f => f t) t).records.map
      DnsRecord.id = t.records.map DnsRecord.id := by
  induction fs generalizing t with
  | nil => rfl
  | cons f fs ih =>
    rw [List.map_cons, List.foldl_cons, ih fun g hg => hfs g (List.mem_cons_of_mem f hg)]
    exact Tables.ids_mapRecord (hfs f List.mem_cons_self)

/-- What the assignments of `update_record` leave has a row with an id just when there was one. -/
lemma record?_assignments {id : ℕ} {cs : List (Option (DnsRecord → DnsRecord))}
    (hcs : Columns DnsRecord.id cs) (t : Tables) :
    ((assignments recordTable DnsRecord.id id cs).foldl (fun t f => f t) t).record? id = none ↔
      t.record? id = none := by
  have hkeeps : ∀ f ∈ cs.reduceOption, ∀ r, (f r).id = r.id := fun f hf r =>
    hcs.keepsId (some f) (List.reduceOption_mem_iff.mp hf) f rfl r
  have hids := ids_assignments id hkeeps t
  have hmem : ∀ u : Tables, u.record? id = none ↔ id ∉ u.records.map DnsRecord.id := by
    intro u
    rw [record?_eq_none_iff]
    simp
  unfold assignments
  rw [hmem, hmem, hids]

lemma atomic_updateRecord_iff (id : ℕ) (viewId : Option (Option ℕ)) (name : Option Str)
    (ttl : Option (Option ℕ)) (data : Option Str) (enabled : Option Bool) :
    (updateRecord id viewId name ttl data enabled).Atomic c ↔
      (updateRecord id viewId name ttl data enabled).RefusedEarly c := by
  cases hmissing : viewMissing c.tables id viewId with
  | true =>
    obtain ⟨⟨e, he⟩, htables⟩ : Rejected (Db.updateRecord id viewId name ttl data enabled) c :=
      (rejected_setRecordView hmissing).bind _
    obtain ⟨⟨e', he'⟩, -⟩ : Rejected (Db.stampRecord id viewId name ttl data enabled) c :=
      (rejected_setRecordView hmissing).bind _
    refine iff_of_true (atomic_of_tables htables ?_) ?_
    · rintro ⟨hok, -⟩
      cases he'.symm.trans hok
    · intro h
      cases hmissing.symm.trans h
  | false =>
    have hcs := columns_record viewId name ttl data enabled
    have hstored : c.tables.record? id = none → ∀ k, StoredUpTo c.tables.records DnsRecord.id id
        (recordColumns viewId name ttl data enabled) k := by
      intro hnone k f _ r hr hid
      exact absurd hid (record?_eq_none_iff.mp hnone r hr)
    have hearly : (updateRecord id viewId name ttl data enabled).RefusedEarly c ↔ _ :=
      forall_prop_of_true hmissing
    rw [hearly]
    rcases updates_stops_or (assignments recordTable DnsRecord.id id
      (recordColumns viewId name ttl data enabled) ++ [fun t => t]) c with ⟨k, hk, hstops⟩ | hpasses
    · have hlt : k < (recordColumns viewId name ttl data enabled).reduceOption.length + 1 := by
        simpa [assignments] using hk
      rw [atomic_of_stampRecord_stops (hstops.congr (run_stampRecord hmissing)),
        foldl_assignments_iff _ _ hcs _ (by omega)]
      constructor
      · intro h j hj _
        cases hstops.first.symm.trans hj
        exact ⟨h, fun hgt => by omega⟩
      · intro h
        exact (h k hstops.first (by omega)).1
    · have hlen : (assignments recordTable DnsRecord.id id (recordColumns viewId name ttl data
          enabled) ++ [fun t => t]).length =
            (recordColumns viewId name ttl data enabled).reduceOption.length + 1 := by
        simp [assignments]
      rw [hlen, List.foldl_append] at hpasses
      rw [atomic_of_stampRecord_passes (hpasses.congr (run_stampRecord hmissing))
        (record?_assignments hcs c.tables)]
      · constructor
        · intro h k hk hlt
          have hnone := h k hk hlt
          exact ⟨hstored hnone k, fun _ => record?_eq_none_iff.mp hnone⟩
        · intro h k hk hlt
          have hle := hpasses.le_of_first hk
          exact record?_eq_none_iff.mpr ((h k hk hlt).2 (by omega))
      · intro hnone
        have hall := (foldl_assignments_iff recordTable id hcs [] (le_refl _) c.tables).mpr
          (hstored hnone _)
        rwa [List.append_nil, List.take_of_length_le (by simp [assignments])] at hall

end Cases

/-- A mutation that fails leaves the tables as they were just when the refused statement comes
before its first change. -/
theorem atomic_iff_refusedEarly (m : Mutation) (c : Conn Tables) : m.Atomic c ↔ m.RefusedEarly c := by
  cases m with
  | createRecord zoneId viewId name rtype ttl data => exact atomic_createRecord_iff ..
  | updateRecord id viewId name ttl data enabled => exact atomic_updateRecord_iff ..
  | deleteRecord id => exact atomic_deleteRecord_iff id
  | updateZone id enabled soa defaultTtl => exact atomic_updateZone_iff ..
  | updateView id name networks priority countries continents asns => exact atomic_updateView_iff ..
  | updateDhcpScope id name enabled subnet rangeStart rangeEnd leaseSecs dnsRegister dnsZone serverId
      interface options => exact atomic_updateDhcpScope_iff ..

/-- A zone with one record. -/
def oneRecord : Tables :=
  { Tables.empty with
    zones := [⟨1, "home.lan", true, Soa.defaultFor "home.lan", 300, 7⟩]
    records := [⟨1, 1, none, "nas", "A", none, "192.0.2.1", true⟩] }

/-- A new address for the record. -/
def renumber : Mutation :=
  updateRecord 1 none none none (some "192.0.2.7".toList) none

/-- A database that refuses the fourth statement. -/
def refusesFourth : Conn Tables :=
  ⟨oneRecord, [false, false, false, true], []⟩

/-- When the last statement of an update is refused, the record has the new address and the zone its
old serial. -/
theorem not_atomic_renumber :
    ¬ renumber.Atomic refusesFourth ∧ renumber.run.result refusesFourth = .error .unavailable ∧
      (renumber.run.after refusesFourth).tables.records.map DnsRecord.data = ["192.0.2.7".toList] ∧
      (renumber.run.after refusesFourth).tables.zones.map Zone.serial = [7] := by
  have hdata : (renumber.run.after refusesFourth).tables.records.map DnsRecord.data =
      ["192.0.2.7".toList] := by decide
  refine ⟨?_, by decide, hdata, by decide⟩
  intro h
  have hsame := (h .unavailable (by decide)).1
  rw [hsame] at hdata
  revert hdata
  decide

end Mutation

end Nomina
