import Nomina.Dhcp.Lease
import Nomina.Lib.Rfc3339

/-!
# The lease sweeper

Once a minute the sweeper of `main.rs` prints the current time as RFC 3339 text and deletes the leases
whose expiry comes before it, as text. The allocator reads the expiry back and compares whole seconds.

Expiries are written to the second, and the text of a whole second comes after all other texts of that
second. So the sweeper deletes a lease only when its second is over, and what it deletes holds no
address.
-/

namespace Nomina

open Lib Sql

variable (K : Crates)

/-- What the server relies on when it writes and reads times: in the years 0 to 9999 whole seconds are
printed as RFC 3339 texts, and the texts of instants are read back to the second. -/
structure Crates.PrintsTimes : Prop where
  prints : ∀ t : DateTime, t.InRange → t.nanosecond = 0 → K.rfc3339 t.unix = t.text
  reads : ∀ t : DateTime, t.InRange → K.parseRfc3339 t.text = some t.unix

/-- The expiry of a lease was written by `rfc3339` for a whole second in the years 0 to 9999. -/
def ExpiryWritten (l : DhcpLease) : Prop :=
  ∃ t : DateTime, t.InRange ∧ t.nanosecond = 0 ∧ l.expiresAt = K.rfc3339 t.unix

variable {K}

/-- A lease whose expiry comes before the present, as text, has expired. -/
lemma leaseExpired_of_lt (hK : K.PrintsTimes) {l : DhcpLease} (hl : ExpiryWritten K l)
    {now : DateTime} (h : l.expiresAt < now.printed) : leaseExpired K l now.unix = true := by
  obtain ⟨t, ht, hwhole, hexpires⟩ := hl
  rw [hK.prints t ht hwhole] at hexpires
  have hnow : now.InRange := by
    by_contra hnot
    rw [DateTime.printed, if_neg hnot] at h
    exact List.not_lt_nil _ h
  rw [DateTime.printed, if_pos hnow, hexpires] at h
  have hlt : t.unix < now.unix := DateTime.unix_lt_of_text_lt ht hnow hwhole h
  unfold leaseExpired
  rw [hexpires, hK.reads t ht]
  exact decide_eq_true hlt.le

/-- The sweep keeps every lease that holds its address. -/
lemma kept_of_isHolding (hK : K.PrintsTimes) {l : DhcpLease} (hl : ExpiryWritten K l)
    {now : DateTime} (hhold : isHolding K l now.unix = true) :
    (!decide (l.expiresAt < now.printed)) = true := by
  by_contra hdelete
  have hlt : l.expiresAt < now.printed := by
    rw [Bool.not_eq_true, Bool.not_eq_false', decide_eq_true_eq] at hdelete
    exact hdelete
  unfold isHolding at hhold
  rw [leaseExpired_of_lt hK hl hlt, Bool.not_true, Bool.and_false] at hhold
  cases hhold

/-- For every lease table whose expiries were written by the server and every moment: a sweep at that
moment deletes no lease that the allocator treats as holding in that second. -/
theorem holding_mem_pruneExpiredLeases (K : Crates) (hK : K.PrintsTimes) (c : Conn Tables)
    (hrows : ∀ l ∈ c.tables.leases.rows, ExpiryWritten K l) (now : DateTime) :
    ∀ l ∈ c.tables.leases.rows, isHolding K l now.unix = true →
      l ∈ ((Db.pruneExpiredLeases now.printed).after c).tables.leases.rows := by
  intro l hl hhold
  unfold Db.pruneExpiredLeases execute
  rcases statement_cases .write _ c with ⟨e, -, hafter⟩ | ⟨n, t, -, hprune, -, hafter⟩
  · rw [hafter]
    exact hl
  · cases hprune
    rw [hafter]
    exact List.mem_filter.mpr ⟨hl, kept_of_isHolding hK (hrows l hl) hhold⟩

/-! ## The allocator after a sweep -/

/-- In the second of a sweep the allocator chooses the same address before and after it. -/
theorem allocate_sweptLeases (hK : K.PrintsTimes) {t : LeaseTable}
    (hrows : ∀ l ∈ t.rows, ExpiryWritten K l) (now : DateTime) (scope : DhcpScope)
    (reservations : List DhcpReservation) (clientId : Str) (requestedIp : Option IpAddr) :
    allocate K scope reservations (Db.sweptLeases now.printed t).rows clientId requestedIp now.unix =
      allocate K scope reservations t.rows clientId requestedIp now.unix :=
  allocate_filter (fun l hl hhold => kept_of_isHolding hK (hrows l hl) hhold) scope reservations
    clientId requestedIp

/-- Crates that print and read times as the library does. -/
def clockCrates : Crates :=
  { plainCrates with
    rfc3339 := fun unix => ((DateTime.ofUnix unix).map DateTime.text).getD []
    parseRfc3339 := fun s => (DateTime.parse s).map DateTime.unix }

lemma printsTimes_clockCrates : clockCrates.PrintsTimes where
  prints t ht hwhole := by
    simp only [clockCrates, DateTime.ofUnix_unix ht hwhole, Option.map_some, Option.getD_some]
  reads t ht := by
    simp only [clockCrates, DateTime.parse_text ht, Option.map_some]

/-- A lease of the first host of a network. -/
def leaseUntil (expiresAt : Str) : DhcpLease :=
  ⟨1, 1, .V4, "192.168.1.10", "aa", none, "2026-01-01T00:00:00Z", expiresAt, .Active⟩

/-- The second `2026-01-01T00:00:05Z`. -/
def fiveSeconds : DateTime :=
  .firstMinute 2026 5000000000

/-- The last moment before it. -/
def almostFive : DateTime :=
  .firstMinute 2026 4999999999

/-- A database with one lease. -/
def oneLease : Tables :=
  { Tables.empty with
    leases := ⟨[leaseUntil fiveSeconds.text], List.nodup_singleton _, List.nodup_singleton _⟩ }

/-- A lease is kept until the moment it ends. -/
theorem holding_mem_almostFive :
    isHolding clockCrates (leaseUntil fiveSeconds.text) almostFive.unix = true ∧
      leaseUntil fiveSeconds.text ∈
        ((Db.pruneExpiredLeases almostFive.printed).after ⟨oneLease, [], []⟩).tables.leases.rows := by
  have hhold : isHolding clockCrates (leaseUntil fiveSeconds.text) almostFive.unix = true := by
    decide +kernel
  refine ⟨hhold, ?_⟩
  refine holding_mem_pruneExpiredLeases clockCrates printsTimes_clockCrates ⟨oneLease, [], []⟩
    (fun l hl => ?_) almostFive _ (List.mem_singleton_self _) hhold
  rw [List.mem_singleton.mp hl]
  refine ⟨fiveSeconds, by decide, rfl, ?_⟩
  exact (printsTimes_clockCrates.prints fiveSeconds (by decide) rfl).symm

end Nomina
