import Nomina.Web.Filtering

/-!
# Refreshing blocklists

However the refreshes of the blocklists interleave with each other and with all other requests, and
whichever downloads and statements fail: the domains of a list, in the database and in the filter in place,
are always those of one whole download. It is a download from the URL of a list that had this id when it
began. SQLite gives the id of a list that was deleted to a new one, so this may have been another list; it
was the list itself if no list is deleted.
-/

namespace Nomina

open Lib Sql FilterJob

variable {α : Type}

/-! ## The domains of a list in the database -/

namespace FilterDb

/-- Every list has the domains that it had, or none. -/
def DomainsStay (t t' : FilterDb) : Prop :=
  ∀ id, t'.domainsOf id = t.domainsOf id ∨ t'.domainsOf id = []

instance : IsPreorder FilterDb DomainsStay where
  refl _ _ := .inl rfl
  trans _ _ _ h h' id := by
    rcases h' id with h' | h'
    · rw [h']
      exact h id
    · exact .inr h'

lemma domainsStay_of_entries {t t' : FilterDb} (h : t'.entries = t.entries) : t.DomainsStay t' := by
  intro id
  unfold domainsOf
  rw [h]
  exact .inl rfl

/-- What is left when the entries of one list are deleted. -/
lemma domainsOf_clearEntries (t : FilterDb) (id j : ℕ) :
    (t.clearEntries id).domainsOf j = if j = id then [] else t.domainsOf j := by
  unfold domainsOf clearEntries
  rw [List.filter_filter]
  split
  · rename_i h
    rw [List.map_eq_nil_iff, List.filter_eq_nil_iff]
    intro e _
    simp [h]
  · rename_i h
    congr 1
    refine List.filter_congr fun e _ => ?_
    by_cases hj : e.blocklistId = j
    · simp [hj, h]
    · simp [hj]

lemma domainsStay_removeList (t : FilterDb) (id : ℕ) : t.DomainsStay (t.removeList id) := by
  intro j
  change (t.clearEntries id).domainsOf j = _ ∨ (t.clearEntries id).domainsOf j = _
  rw [domainsOf_clearEntries]
  split
  · exact .inr rfl
  · exact .inl rfl

/-- Entries of one list behind the others. -/
def addEntries (t : FilterDb) (id : ℕ) (domains : List Str) : FilterDb :=
  { t with entries := t.entries ++ domains.map (⟨id, ·⟩) }

lemma domainsOf_addEntries (t : FilterDb) (id j : ℕ) (domains : List Str) :
    (t.addEntries id domains).domainsOf j =
      if j = id then t.domainsOf j ++ domains else t.domainsOf j := by
  unfold domainsOf addEntries
  dsimp only
  rw [List.filter_append, List.map_append]
  split
  · rename_i h
    subst h
    congr 1
    rw [List.filter_eq_self.mpr, List.map_map]
    · exact List.map_id domains
    · simp
  · rename_i h
    rw [List.filter_eq_nil_iff (l := domains.map _) |>.mpr, List.map_nil, List.append_nil]
    simp [Ne.symm h]

end FilterDb

namespace Db

open FilterDb

/-- Inserting entries one by one, if no statement fails. -/
lemma insertEntries_ok {id : ℕ} {domains : List Str} {c : Conn FilterDb} {u : Unit}
    (h : (domains.forM fun d => execute (FilterDb.insertEntry · id d)).result c = .ok u) :
    ((domains.forM fun d => execute (FilterDb.insertEntry · id d)).after c).tables =
      c.tables.addEntries id domains := by
  induction domains generalizing c with
  | nil =>
    unfold addEntries
    rw [List.map_nil, List.append_nil]
    rfl
  | cons d domains ih =>
    change (execute (FilterDb.insertEntry · id d) >>= fun _ => domains.forM _).result c = .ok u at h
    change ((execute (FilterDb.insertEntry · id d) >>= fun _ => domains.forM _).after c).tables = _
    obtain ⟨v, hfirst, hrest, hafter⟩ := EStateM.bind_ok h
    obtain ⟨t, hinsert, hstep⟩ := statement_ok hfirst
    have ht : t = c.tables.addEntries id [d] := by
      unfold FilterDb.insertEntry at hinsert
      split at hinsert
      · cases hinsert
        rfl
      · cases hinsert
    have hafter' : ((execute (FilterDb.insertEntry · id d)).after c).tables = t := by
      unfold execute
      rw [hstep]
      rfl
    rw [hafter, ih hrest, hafter', ht]
    unfold addEntries
    rw [List.append_assoc]
    rfl

/-- The entries of a list are replaced as a whole, or not at all. -/
lemma replaceBlocklistEntries_cases (id : ℕ) (domains : List Str) (error : Option Str)
    (c : Conn FilterDb) :
    ((replaceBlocklistEntries id domains error).after c).tables = c.tables ∨
      ∀ j, ((replaceBlocklistEntries id domains error).after c).tables.domainsOf j =
        if j = id then domains else c.tables.domainsOf j := by
  unfold replaceBlocklistEntries
  rcases transaction_cases _ c with ⟨e, -, htables, -⟩ | ⟨u, hres, -, htables, -⟩
  · exact .inl htables
  · refine .inr fun j => ?_
    rw [htables]
    obtain ⟨v, hclear, hrest, hafter⟩ := EStateM.bind_ok hres
    obtain ⟨w, hinsert, hlast, hafter'⟩ := EStateM.bind_ok hrest
    rw [hafter, hafter', update_ok hlast]
    have htables : ((domains.forM fun d => execute (FilterDb.insertEntry · id d)).after
        ((update (FilterDb.clearEntries · id)).after { c with log := [] })).tables =
          (c.tables.clearEntries id).addEntries id domains := by
      rw [insertEntries_ok hinsert, update_ok hclear]
      rfl
    change (FilterDb.domainsOf (Conn.tables (EStateM.after _ _)) j) = _
    rw [htables, domainsOf_addEntries, domainsOf_clearEntries]
    split <;> rfl

/-- An update that leaves the entries alone. -/
lemma domainsStay_update {f : FilterDb → FilterDb} (h : ∀ t, (f t).entries = t.entries) :
    Sql.Keeps DomainsStay (update f) :=
  .update fun t => domainsStay_of_entries (h t)

end Db

/-! ## Where the domains of a list come from -/

namespace FilterServer

variable (t₀ : FilterDb) (s : FilterServer)

/-- The domains are those that the list had at the start, or none, or those of one whole download: from the
URL of a list that had this id, in the format of that list. -/
def Downloaded (id : ℕ) (domains : List Str) : Prop :=
  domains = t₀.domainsOf id ∨ domains = [] ∨ ∃ t ∈ s.past, ∃ b ∈ t.lists, b.id = id ∧
    ∃ text, (b.url, text) ∈ s.downloads ∧ domains = parseBlocklist text b.format

/-- So are those of every list in the database and in the filter. -/
structure Whole : Prop where
  lists : ∀ id, s.Downloaded t₀ id (s.db.domainsOf id)
  filter : ∀ src ∈ s.filter.blocklists, ∃ domains, s.Downloaded t₀ src.1 domains ∧
    src.2 = domains.map toAsciiLowercase

variable {t₀ s}

lemma Downloaded.mono {s' : FilterServer} {id : ℕ} {domains : List Str} (h : s.Downloaded t₀ id domains)
    (hs : s.Grows s') : s'.Downloaded t₀ id domains := by
  rcases h with h | h | ⟨t, ht, b, hb, hid, text, hdownload, h⟩
  · exact .inl h
  · exact .inr (.inl h)
  · exact .inr (.inr ⟨t, hs.1 ht, b, hb, hid, text, hs.2 hdownload, h⟩)

/-- Turns that leave the filter in place alone. -/
lemma Whole.of_lists {s' : FilterServer} (h : s.Whole t₀) (hs : s.Grows s') (hfilter : s'.filter = s.filter)
    (hlists : ∀ id, s'.db.domainsOf id = s.db.domainsOf id ∨ s'.Downloaded t₀ id (s'.db.domainsOf id)) :
    s'.Whole t₀ where
  lists id := by
    rcases hlists id with heq | h'
    · rw [heq]
      exact (h.lists id).mono hs
    · exact h'
  filter src hsrc := by
    rw [hfilter] at hsrc
    obtain ⟨domains, h', heq⟩ := h.filter src hsrc
    exact ⟨domains, h'.mono hs, heq⟩

/-- A database call that leaves every list its domains, or none. -/
lemma Whole.recorded {s : FilterServer} (hs : s.Whole t₀) {m : Sql FilterDb α}
    (hm : Sql.Keeps FilterDb.DomainsStay m) : (s.recorded { s with conn := m.after s.conn }).Whole t₀ := by
  refine hs.of_lists (grows_recorded s _) rfl fun id => ?_
  rcases hm s.conn id with h | h
  · exact .inl h
  · exact .inr (.inr (.inl h))

end FilterServer

open FilterServer

/-! ## Turns -/

section Turns

variable {t₀ : FilterDb}

/-- A job that keeps the lists whole. -/
abbrev KeepsWhole (t₀ : FilterDb) (p : FilterJob α) : Prop :=
  p.Preserves Grows (Whole t₀)

lemma keepsWhole_tryCall {m : Sql FilterDb α} (hm : Sql.Keeps FilterDb.DomainsStay m) :
    KeepsWhole t₀ (tryCall m) := by
  apply Job.Preserves.atomically
  exact fun s hs => ⟨grows_recorded s _, hs.recorded hm⟩

lemma keepsWhole_call {m : Sql FilterDb α} (hm : Sql.Keeps FilterDb.DomainsStay m) :
    KeepsWhole t₀ (call m) := by
  apply Job.Preserves.atomically
  exact fun s hs => ⟨grows_recorded s _, hs.recorded hm⟩

lemma keepsWhole_look (f : FilterServer → α) : KeepsWhole t₀ (look f) := by
  apply Job.Preserves.atomically
  exact fun s hs => ⟨refl_of Grows s, hs⟩

/-- Turns that change nothing of the database, the filter and the history. -/
lemma keepsWhole_modify {f : FilterServer → FilterServer}
    (hf : ∀ s, s.Grows (f s) ∧ (f s).db = s.db ∧ (f s).filter = s.filter) : KeepsWhole t₀ (modify f) := by
  apply Job.Preserves.atomically
  intro s hs
  obtain ⟨hgrows, hdb, hfilter⟩ := hf s
  refine ⟨hgrows, hs.of_lists hgrows hfilter fun id => .inl ?_⟩
  change (f s).db.domainsOf id = _
  rw [hdb]

end Turns

/-! ## Reloading -/

section Reload

variable (K : Crates) (order : IterationOrder (ℕ × List Str)) (builds : List Forwarder → Bool)
  {t₀ : FilterDb}

/-- A source of blocked domains has all domains of its list. -/
lemma domains_of_mem_blockSources {t : FilterDb} {src : ℕ × List Str}
    (h : src ∈ order.arrange (blockSources (Db.enabledBlockDomainsByList t.filterTables))) :
    src.2 = (t.domainsOf src.1).map toAsciiLowercase := by
  obtain ⟨id, hid, rfl⟩ := List.mem_map.mp ((order.perm _).mem_iff.mp h)
  obtain ⟨d, hd, rfl⟩ := List.mem_map.mp (List.mem_dedup.mp hid)
  obtain ⟨e, he, rfl⟩ := List.mem_map.mp hd
  obtain ⟨-, henabled⟩ := List.mem_filter.mp he
  unfold Db.enabledBlockDomainsByList FilterDb.domainsOf
  rw [List.filter_map, List.filter_filter, List.map_map, List.map_map]
  change (t.entries.filter _).map _ = (t.entries.filter _).map _
  congr 1
  refine List.filter_congr fun e' _ => ?_
  by_cases heq : e'.blocklistId = e.blocklistId
  · simp only [Function.comp_apply, heq, beq_self_eq_true, decide_true, Bool.true_and]
    exact henabled
  · simp [heq]

/-- A loaded filter has, for each of its lists, the domains of the list in the database. -/
lemma domains_of_load {blocking : Bool} {c : Conn FilterDb} {f : FilterSet}
    (h : (FilterSet.load K order blocking).result c = .ok f) {src : ℕ × List Str}
    (hsrc : src ∈ f.blocklists) : src.2 = (c.tables.domainsOf src.1).map toAsciiLowercase := by
  unfold FilterSet.load at h
  obtain ⟨domains, hdomains, h, -⟩ := EStateM.bind_ok h
  obtain ⟨rules, -, h, -⟩ := EStateM.bind_ok h
  obtain ⟨rewrites, -, h, -⟩ := EStateM.bind_ok h
  cases h
  rcases unwrapOr_select_ok hdomains with rfl | rfl
  · exact domains_of_mem_blockSources order hsrc
  · have hnil : src ∈ blockSources [] := (order.perm _).mem_iff.mp hsrc
    cases hnil

variable (t₀) in
/-- A filter that was loaded from whole lists. -/
def FromWhole (filter : FilterSet) (s : FilterServer) : Prop :=
  ∀ src ∈ filter.blocklists, ∃ domains, s.Downloaded t₀ src.1 domains ∧
    src.2 = domains.map toAsciiLowercase

lemma FromWhole.mono {filter : FilterSet} {s s' : FilterServer} (h : FromWhole t₀ filter s)
    (hs : s.Grows s') : FromWhole t₀ filter s' := by
  intro src hsrc
  obtain ⟨domains, hdownloaded, heq⟩ := h src hsrc
  exact ⟨domains, hdownloaded.mono hs, heq⟩

/-- The filter that a reload puts in place was loaded from whole lists. -/
lemma keepsWhole_reloadFilter : KeepsWhole t₀ (reloadFilter K order) := by
  refine (keepsWhole_look _).bind fun ⟨blocking, changes⟩ => ?_
  intro s hs
  refine Job.Holds.bind (P := FromWhole t₀) ?_ ?_
  · refine Job.Safe.atomically fun t ht => ?_
    have hwhole := ht.2 hs
    have hkeeps := hwhole.recorded (keeps_loadFilter (R := FilterDb.DomainsStay) K order blocking)
    refine ⟨(), ⟨grows_recorded t _, fun _ => hkeeps⟩, fun t' ht' => ⟨ht'.2 hkeeps, fun filter hok => ?_⟩⟩
    refine FromWhole.mono (s := t) (fun src hsrc => ⟨t.db.domainsOf src.1, hwhole.lists src.1, ?_⟩)
      (trans_of Grows (grows_recorded t _) ht'.1)
    have hload : (FilterSet.load K order blocking).result t.conn = .ok filter := by
      cases hres : (FilterSet.load K order blocking).result t.conn with
      | ok f =>
        rw [hres] at hok
        cases hok
        rfl
      | error e =>
        rw [hres] at hok
        cases hok
    exact domains_of_load K order hload hsrc
  · intro filter s' hs' hfilter t ht
    have hwhole := ht.2 hs'
    have hinstalled := hfilter.mono ht.1
    exact ⟨(), ⟨refl_of Grows t, fun _ => ⟨hwhole.lists, hinstalled⟩⟩,
      fun t' ht' => ht'.2 ⟨hwhole.lists, hinstalled⟩⟩

lemma keepsWhole_reloadConditional : KeepsWhole t₀ (reloadConditional builds) := by
  apply (keepsWhole_look _).bind fun changes => ?_
  apply (keepsWhole_call (keeps_loadConditional builds)).bind fun conditional => ?_
  exact keepsWhole_modify fun s => ⟨refl_of Grows s, rfl, rfl⟩

end Reload

/-! ## Refreshing -/

section Refresh

variable (K : Crates) (order : IterationOrder (ℕ × List Str)) {t₀ : FilterDb}

/-- What a refresh knows of the list that it reads: some contents in the history have it. -/
def Known (b : BlocklistRow) (s : FilterServer) : Prop :=
  ∃ t ∈ s.past, b ∈ t.lists

/-- What it knows of the domains that it has downloaded. -/
def Fetched (b : BlocklistRow) (domains : List Str) (s : FilterServer) : Prop :=
  Known b s ∧ ∃ text, (b.url, text) ∈ s.downloads ∧ domains = parseBlocklist text b.format

lemma Known.mono {b : BlocklistRow} {s s' : FilterServer} (h : Known b s) (hs : s.Grows s') :
    Known b s' := by
  obtain ⟨t, ht, hb⟩ := h
  exact ⟨t, hs.1 ht, hb⟩

lemma Fetched.mono {b : BlocklistRow} {domains : List Str} {s s' : FilterServer}
    (h : Fetched b domains s) (hs : s.Grows s') : Fetched b domains s' := by
  obtain ⟨hknown, text, hdownload, hparse⟩ := h
  exact ⟨hknown.mono hs, text, hs.2 hdownload, hparse⟩

/-- The row that is read is in the database, and thereby in the history. -/
lemma holds_blocklist (id : ℕ) {s : FilterServer} (hs : s.Whole t₀) :
    (tryCall (Db.blocklist id)).Holds Grows (Whole t₀) s fun r s' => s'.Whole t₀ ∧
      ∀ r', r = .ok r' → ∀ b, r' = .ok (some b) → b.id = id ∧ Known b s' := by
  refine Job.Safe.atomically fun t ht => ?_
  have hkeeps := (ht.2 hs).recorded (m := Db.blocklist id) (.select _)
  refine ⟨(), ⟨grows_recorded t _, fun _ => hkeeps⟩, fun t' ht' => ⟨ht'.2 hkeeps, ?_⟩⟩
  rintro r hr b rfl
  have hres : (Db.blocklist id).result t.conn = .ok (some b) := Except.ok.inj hr
  obtain ⟨hfind, hafter⟩ := select_ok hres
  refine ⟨beq_iff_eq.mp (List.find?_some (p := fun b : BlocklistRow => b.id == id) hfind.symm), t.db,
    ht'.1.1 (List.mem_append_right _ ?_), List.mem_of_find?_eq_some hfind.symm⟩
  change t.db ∈ [((Db.blocklist id).after t.conn).tables]
  unfold Db.blocklist
  rw [hafter]
  exact List.mem_singleton_self _

/-- What a download returns is the parse of one text, which is then in the history. -/
lemma holds_fetchBlocklist {b : BlocklistRow} {s : FilterServer} (hs : s.Whole t₀) (hb : Known b s) :
    (fetchBlocklist b.url b.format).Holds Grows (Whole t₀) s fun r s' => s'.Whole t₀ ∧
      ∀ r', r = .ok r' → ∀ domains, r' = .ok domains → Fetched b domains s' := by
  refine Job.Safe.atomically fun t ht => ?_
  have hknown := hb.mono ht.1
  have hwhole := ht.2 hs
  split
  · rename_i text rest _
    have hgrows : t.Grows { t with replies := rest, downloads := t.downloads ++ [(b.url, text)] } :=
      ⟨List.Subset.refl _, List.subset_append_left _ _⟩
    have hkeeps := hwhole.of_lists hgrows rfl fun _ => .inl rfl
    refine ⟨(), ⟨hgrows, fun _ => hkeeps⟩, fun t' ht' => ⟨ht'.2 hkeeps, ?_⟩⟩
    rintro r hr domains rfl
    cases hr
    have hfetched : Fetched b _ { t with replies := rest, downloads := t.downloads ++ [(b.url, text)] } :=
      ⟨hknown, text, List.mem_append_right _ (List.mem_singleton_self _), rfl⟩
    exact hfetched.mono ht'.1
  · rename_i e rest _
    have hkeeps : Whole t₀ { t with replies := rest } :=
      hwhole.of_lists (refl_of Grows t) rfl fun _ => .inl rfl
    refine ⟨(), ⟨refl_of Grows t, fun _ => hkeeps⟩, fun t' ht' => ⟨ht'.2 hkeeps, ?_⟩⟩
    rintro r hr domains rfl
    cases hr
  · refine ⟨(), ⟨refl_of Grows t, fun h => h⟩, fun t' ht' => ⟨ht'.2 hwhole, ?_⟩⟩
    rintro r hr domains rfl
    cases hr

/-- The downloaded domains replace all entries of the list, or none. -/
lemma holds_replaceBlocklistEntries {b : BlocklistRow} {domains : List Str} {s : FilterServer}
    (hs : s.Whole t₀) (hb : Fetched b domains s) :
    (tryCall (Db.replaceBlocklistEntries b.id domains none)).Holds Grows (Whole t₀) s
      fun _ s' => s'.Whole t₀ := by
  refine Job.Safe.atomically fun t ht => ?_
  have hgrows := grows_recorded t ((Db.replaceBlocklistEntries b.id domains none).after t.conn)
  obtain ⟨⟨t₁, ht₁, hmem⟩, text, hdownload, hparse⟩ := hb.mono (trans_of Grows ht.1 hgrows)
  have hkeeps := (ht.2 hs).of_lists hgrows rfl fun j => ?_
  · exact ⟨(), ⟨hgrows, fun _ => hkeeps⟩, fun t' ht' => ht'.2 hkeeps⟩
  · change ((Db.replaceBlocklistEntries b.id domains none).after t.conn).tables.domainsOf j = _ ∨
      Downloaded t₀ _ j (((Db.replaceBlocklistEntries b.id domains none).after t.conn).tables.domainsOf j)
    rcases Db.replaceBlocklistEntries_cases b.id domains none t.conn with h | h
    · rw [h]
      exact .inl rfl
    · rw [h]
      split
      · rename_i hj
        exact .inr (.inr (.inr ⟨t₁, ht₁, b, hmem, hj.symm, text, hdownload, hparse⟩))
      · exact .inl rfl

/-- The refresh of one list. -/
lemma keepsWhole_refreshOne (id : ℕ) : KeepsWhole t₀ (refreshOne id) := by
  intro s hs
  refine Job.Holds.bind (holds_blocklist id hs) fun r s' hs' hr => ?_
  split
  · rename_i b
    obtain ⟨rfl, hb⟩ := hr b rfl
    refine Job.Holds.bind (holds_fetchBlocklist hs' hb) fun r s'' hs'' hr => ?_
    split
    · rename_i domains
      refine Job.Holds.bind (P := fun _ _ => True) ?_ fun _ t ht _ => Job.Preserves.pure () t ht
      exact (holds_replaceBlocklistEntries hs'' (hr domains rfl)).mono fun _ _ _ h => ⟨h, fun _ _ => trivial⟩
    · rename_i e
      have herror : KeepsWhole t₀ (tryCall (Db.setBlocklistError b.id e)) :=
        keepsWhole_tryCall (Db.domainsStay_update fun _ => rfl)
      exact herror.bind (fun _ => .pure _) s'' hs''
  · exact Job.Preserves.pure () s' hs'

end Refresh

/-! ## Requests -/

section Requests

variable (K : Crates) (T : Api.TsigCrates) (order : IterationOrder (ℕ × List Str))
  (builds : List Forwarder → Bool) {t₀ : FilterDb}

lemma domainsStay_writes (request : FilterRequest) : request.WritesKeep K FilterDb.DomainsStay := by
  -- Only the deletion of a list touches the entries.
  refine FilterRequest.writesKeep (fun _ _ _ hentries => FilterDb.domainsStay_of_entries hentries) ?_ ?_ ?_
  · exact fun _ _ _ => Db.keeps_insertReturning fun t => FilterDb.domainsStay_of_entries rfl
  · exact fun _ _ _ => .bind (Db.keeps_forM fun _ => Db.domainsStay_update fun _ => rfl) fun _ =>
      Db.keeps_forM fun _ => Db.domainsStay_update fun _ => rfl
  · exact fun id _ => .update fun t => FilterDb.domainsStay_removeList t id

/-- Every request keeps the lists whole. -/
lemma keepsWhole_handle (request : FilterRequest) :
    KeepsWhole t₀ (request.handle K T order builds) := by
  have hsteps : StepsPreserve K order builds Grows (Whole t₀) FilterDb.DomainsStay := {
    calls := keepsWhole_call
    tries := keepsWhole_tryCall
    switches := fun settings => keepsWhole_modify fun s =>
      ⟨⟨List.subset_append_left _ _, List.Subset.refl _⟩, rfl, rfl⟩
    filter := keepsWhole_reloadFilter K order
    forwards := keepsWhole_reloadConditional builds
    refreshes := keepsWhole_refreshOne }
  exact hsteps.handle (domainsStay_writes K request)

end Requests

/-! ## Lists that are not deleted -/

section NotDeleted

variable (K : Crates)

/-- The row of a list that can have another name, switch and error. -/
def SameList (b b' : BlocklistRow) : Prop :=
  b'.id = b.id ∧ b'.url = b.url ∧ b'.format = b.format

/-- Ids stay unique, and every list stays. -/
def FilterDb.ListsStay (t t' : FilterDb) : Prop :=
  ((t.lists.map (·.id)).Nodup → (t'.lists.map (·.id)).Nodup) ∧
    ∀ b ∈ t.lists, ∃ b' ∈ t'.lists, SameList b b'

instance : IsPreorder FilterDb FilterDb.ListsStay where
  refl _ := ⟨id, fun b hb => ⟨b, hb, rfl, rfl, rfl⟩⟩
  trans _ _ _ h h' := by
    refine ⟨fun hids => h'.1 (h.1 hids), fun b hb => ?_⟩
    obtain ⟨b', hb', hid, hurl, hformat⟩ := h.2 b hb
    obtain ⟨b'', hb'', hid', hurl', hformat'⟩ := h'.2 b' hb'
    exact ⟨b'', hb'', hid'.trans hid, hurl'.trans hurl, hformat'.trans hformat⟩

lemma FilterDb.listsStay_of_lists {t t' : FilterDb} (h : t'.lists = t.lists) : t.ListsStay t' := by
  unfold ListsStay
  rw [h]
  exact refl_of ListsStay t

lemma FilterDb.listsStay_mapList (t : FilterDb) (id : ℕ) {f : BlocklistRow → BlocklistRow}
    (hf : ∀ b, SameList b (f b)) : t.ListsStay (t.mapList id f) := by
  have hsame : ∀ b, SameList b (if b.id = id then f b else b) := by
    intro b
    split
    · exact hf b
    · exact ⟨rfl, rfl, rfl⟩
  constructor
  · intro hids
    have hmap : t.lists.map ((·.id) ∘ fun b => if b.id = id then f b else b) = t.lists.map (·.id) :=
      List.map_congr_left fun b _ => (hsame b).1
    unfold mapList
    rwa [List.map_map, hmap]
  · exact fun b hb => ⟨_, List.mem_map_of_mem hb, hsame b⟩

lemma FilterDb.listsStay_entries (t : FilterDb) (entries : List BlocklistEntry) :
    t.ListsStay { t with entries } :=
  listsStay_of_lists rfl

lemma FilterDb.listsStay_error (t : FilterDb) (id : ℕ) (error : Option Str) :
    t.ListsStay (t.mapList id fun b => { b with lastError := error }) :=
  t.listsStay_mapList id fun _ => ⟨rfl, rfl, rfl⟩

lemma FilterDb.listsStay_insert (t : FilterDb) (name url : Str) (format : BlocklistFormat)
    (enabled : Bool) : t.ListsStay { t with
      lists := t.lists ++ [⟨freshId (t.lists.map (·.id)), name, url, format, enabled, none⟩] } := by
  constructor
  · intro hids
    dsimp only
    rw [List.map_append]
    exact nodup_append_freshId hids
  · exact fun b hb => ⟨b, List.mem_append_left _ hb, rfl, rfl, rfl⟩

lemma listsStay_writes {request : FilterRequest} (h : ∀ id, request ≠ .deleteBlocklist id) :
    request.WritesKeep K FilterDb.ListsStay := by
  have hmap {id : ℕ} {f : BlocklistRow → BlocklistRow} (hf : ∀ b, SameList b (f b)) :
      Sql.Keeps FilterDb.ListsStay (update (FilterDb.mapList · id f)) :=
    .update fun t => t.listsStay_mapList id hf
  refine FilterRequest.writesKeep (fun _ _ hlists _ => FilterDb.listsStay_of_lists hlists) ?_ ?_ ?_
  · exact fun _ _ _ => Db.keeps_insertReturning fun t => t.listsStay_insert _ _ _ _
  · exact fun _ _ _ => .bind (Db.keeps_forM fun _ => hmap fun _ => ⟨rfl, rfl, rfl⟩) fun _ =>
      Db.keeps_forM fun _ => hmap fun _ => ⟨rfl, rfl, rfl⟩
  · exact fun id heq => absurd heq (h id)

end NotDeleted

/-- The domains are those that the list had at the start, or none, or those of one whole download from the
URL of the list with this id, in its format. -/
def FilterServer.OwnDownload (t₀ : FilterDb) (s : FilterServer) (id : ℕ) (domains : List Str) : Prop :=
  domains = t₀.domainsOf id ∨ domains = [] ∨ ∃ b ∈ s.db.lists, b.id = id ∧
    ∃ text, (b.url, text) ∈ s.downloads ∧ domains = parseBlocklist text b.format

/-- When every list stays, the list of the download is still there. -/
lemma FilterServer.ownDownload_of_downloaded {t₀ : FilterDb} {s : FilterServer} {id : ℕ} {domains : List Str}
    (hstay : ∀ t ∈ s.past, t.ListsStay s.db) (h : s.Downloaded t₀ id domains) :
    s.OwnDownload t₀ id domains := by
  rcases h with h | h | ⟨t, ht, b, hb, hid, text, hdownload, h⟩
  · exact .inl h
  · exact .inr (.inl h)
  · obtain ⟨b', hb', hid', hurl, hformat⟩ := (hstay t ht).2 b hb
    rw [← hurl] at hdownload
    rw [← hformat] at h
    exact .inr (.inr ⟨b', hb', hid'.trans hid, text, hdownload, h⟩)

/-! ## The result -/

/-- In every run, in the database and in the filter in place, the domains of each list are those that it had
at the start, or none, or those of one whole download for a list that had this id. If no request deletes a
list, it was a download from the URL of the list itself, in its format, and for the filter in place from that
of the list with the id that it has there. -/
theorem downloads_of_run (K : Crates) (T : Api.TsigCrates) (order : IterationOrder (ℕ × List Str))
    (builds : List Forwarder → Bool) (t : FilterDb) (hids : (t.lists.map (·.id)).Nodup)
    (faults : List Bool) (replies : List (Except Str Str)) (as : List (PoolStep FilterRequest))
    (p : Pool FilterServer AppError FilterReply)
    (hrun : run (Pool.step (FilterRequest.handle K T order builds))
      ⟨.initial K order builds t faults replies, []⟩ as = some p) :
    (∀ id, p.shared.Downloaded t id (p.shared.db.domainsOf id)) ∧
      (∀ src ∈ p.shared.filter.blocklists, ∃ domains, p.shared.Downloaded t src.1 domains ∧
        src.2 = domains.map toAsciiLowercase) ∧
      ((∀ id, .start (.deleteBlocklist id) ∉ as) →
        (∀ b ∈ p.shared.db.lists,
          p.shared.db.domainsOf b.id = t.domainsOf b.id ∨ p.shared.db.domainsOf b.id = [] ∨
            ∃ text, (b.url, text) ∈ p.shared.downloads ∧
              p.shared.db.domainsOf b.id = parseBlocklist text b.format) ∧
        ∀ src ∈ p.shared.filter.blocklists, ∃ domains, p.shared.OwnDownload t src.1 domains ∧
          src.2 = domains.map toAsciiLowercase) := by
  have hinitial : (FilterServer.initial K order builds t faults replies).Whole t :=
    ⟨fun _ => .inl rfl, fun src hsrc => ⟨_, .inl rfl, domains_of_mem_blockSources order hsrc⟩⟩
  have hwhole : p.shared.Whole t := by
    refine Pool.invariant_of_run (R := Grows) (A := fun _ => True) (fun request _ => ?_) hinitial (fun _ _ => trivial) hrun
    exact keepsWhole_handle K T order builds request
  refine ⟨hwhole.lists, hwhole.filter, fun hdelete => ?_⟩
  have hkept : ∀ t' ∈ t :: p.shared.past, t'.ListsStay p.shared.db := by
    refine related_of_run FilterDb.listsStay_entries FilterDb.listsStay_error (fun request hrequest => ?_) hrun
    refine listsStay_writes K fun id heq => hdelete id ?_
    exact heq ▸ hrequest
  have hown : ∀ {id : ℕ} {domains : List Str}, p.shared.Downloaded t id domains →
      p.shared.OwnDownload t id domains :=
    FilterServer.ownDownload_of_downloaded fun t' ht' => hkept t' (List.mem_cons_of_mem t ht')
  constructor
  · intro b hb
    rcases hown (hwhole.lists b.id) with h | h | ⟨b', hb', hid, text, hdownload, h⟩
    · exact .inl h
    · exact .inr (.inl h)
    · -- There is only one list with the id.
      have hids' := (hkept t List.mem_cons_self).1 hids
      obtain rfl : b' = b := List.inj_on_of_nodup_map hids' hb' hb hid
      exact .inr (.inr ⟨text, hdownload, h⟩)
  · intro src hsrc
    obtain ⟨domains, hdomains, hlower⟩ := hwhole.filter src hsrc
    exact ⟨domains, hown hdomains, hlower⟩

/-- The tables of a new installation. -/
def noFilterDb : FilterDb :=
  ⟨[], [], [], [], [], none⟩

/-- A run of a server with new tables that downloads one text. -/
def runDownloading (text : Str) (as : List (PoolStep FilterRequest)) :
    Option (Pool FilterServer AppError FilterReply) :=
  run (Pool.step (FilterRequest.handle plainCrates Api.plainTsig .plain fun _ => true))
    ⟨.initial plainCrates .plain (fun _ => true) noFilterDb [] [.ok text], []⟩ as

/-- Job `i` takes its next turns. -/
def turns (i n : ℕ) : List (PoolStep FilterRequest) :=
  List.replicate n (.turn i)

/-- A list is created and refreshed at once. -/
def refreshedAtOnce : List (PoolStep FilterRequest) :=
  .start (.createBlocklist "ads" "https://ads.example/hosts" .Hosts true) :: turns 0 8

/-- While a list is refreshed it is deleted, and another one is created, which gets its id. -/
def reusedId : List (PoolStep FilterRequest) :=
  .start (.createBlocklist "ads" "https://ads.example/hosts" .Hosts false) :: turns 0 5 ++
    .start (.refreshBlocklist 1) :: .turn 1 :: .start (.deleteBlocklist 1) :: turns 2 4 ++
    .start (.createBlocklist "spam" "https://spam.example/list" .Domains false) :: turns 3 5 ++ turns 1 2

/-- What the URL of the first list returns. -/
def adsText : Str :=
  "0.0.0.0 ads.example.com\n".toList

/-- In the first run the domains of the list were downloaded from its URL; in the second one from that of
the deleted list. -/
theorem downloads_reusedId :
    (∃ p text, runDownloading adsText refreshedAtOnce = some p ∧
      ("https://ads.example/hosts".toList, text) ∈ p.shared.downloads ∧
      p.shared.db.domainsOf 1 = parseBlocklist text .Hosts) ∧
    ∃ p, runDownloading adsText reusedId = some p ∧
      p.shared.db.lists.map (·.url) = ["https://spam.example/list".toList] ∧
      p.shared.Downloaded noFilterDb 1 ["ads.example.com".toList] := by
  have hnodup : (noFilterDb.lists.map (·.id)).Nodup := List.nodup_nil
  have hdownloads := downloads_of_run plainCrates Api.plainTsig .plain (fun _ => true) noFilterDb hnodup []
    [.ok adsText]
  constructor
  · obtain ⟨p, hp, hstate⟩ := (Option.any_eq_true _ _).mp (show (runDownloading adsText refreshedAtOnce).any
      (fun p => p.shared.db.lists == [⟨1, "ads", "https://ads.example/hosts", .Hosts, true, none⟩] &&
        p.shared.db.domainsOf 1 != []) = true by decide +kernel)
    rw [Bool.and_eq_true, beq_iff_eq, bne_iff_ne] at hstate
    have hlist := ((hdownloads refreshedAtOnce p hp).2.2
      fun id h => by simp [refreshedAtOnce, turns] at h).1 _ (hstate.1 ▸ List.mem_singleton_self _)
    rcases hlist with h | h | ⟨text, hdownload, h⟩
    · exact absurd h hstate.2
    · exact absurd h hstate.2
    · exact ⟨p, text, hp, hdownload, h⟩
  · obtain ⟨p, hp, hstate⟩ := (Option.any_eq_true _ _).mp (show (runDownloading adsText reusedId).any
      (fun p => p.shared.db.lists.map (·.url) == ["https://spam.example/list".toList] &&
        p.shared.db.domainsOf 1 == ["ads.example.com".toList]) = true by decide +kernel)
    rw [Bool.and_eq_true, beq_iff_eq, beq_iff_eq] at hstate
    have hlist := (hdownloads reusedId p hp).1 1
    rw [hstate.2] at hlist
    exact ⟨p, hp, hstate.1, hlist⟩

end Nomina
