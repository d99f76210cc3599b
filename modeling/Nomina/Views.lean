import Nomina.Operations
import Nomina.Lib.Lts

/-!
# The default view

Views are tried in the order of their priorities, and the default view, which has every client, is
meant to come last. `ensure_default_view` makes it with a low precedence, and the API refuses to delete
it or to change its networks. But it takes any priority for any view, and a view that does not come
before the default one gets no client.

Over every sequence of requests there is exactly one default view. In every sequence that puts no view
at or behind the default one, a client that another view has gets such a view.
-/

namespace Nomina

open Lib Sql

variable {K : Crates}

/-! ## Requests -/

/-- The requests on views. -/
inductive ViewRequest
  | create (req : Api.ViewCreate)
  | update (id : ℕ) (req : Api.ViewUpdate)
  | delete (id : ℕ)

namespace ViewRequest

/-- The state after a request. -/
def after (K : Crates) (s : AppState) : ViewRequest → AppState
  | .create req => (Api.createView K req).after s
  | .update id req => (Api.updateView K id req).after s
  | .delete id => (Api.deleteView K id).after s

/-- A request is a step that is always possible. -/
def step (K : Crates) (s : AppState) (a : ViewRequest) : Option AppState :=
  some (a.after K s)

/-- The checks that a request passes before it sets a priority. -/
def accepted (K : Crates) (t : Tables) : ViewRequest → Bool
  | .create req => Api.validViewName req.name && (Api.validateNetworks K req.networks).isOk &&
      !t.views.any (·.name == req.name)
  | .update id req => (t.view? id).any fun v => req.name.all Api.validViewName &&
      !(req.networks.isSome && v.isDefault) &&
      req.networks.all (fun networks => (Api.validateNetworks K networks).isOk) &&
      !req.name.any fun name => t.views.any fun w => w.id != id && w.name == name
  | .delete _ => true

/-- The priority that a request sets leaves the other views before the default one. -/
def KeepsOrder (t : Tables) : ViewRequest → Prop
  | .create req => ∀ d ∈ t.views, d.isDefault = true → req.priority < d.priority
  | .update id req => ∀ p ∈ req.priority, ∀ v ∈ t.views, v.id = id →
      ∀ w ∈ t.views, w.isDefault ≠ v.isDefault → if v.isDefault then w.priority < p else p < w.priority
  | .delete _ => True

end ViewRequest

/-! ## What the views look like -/

/-- There is exactly one default view, and ids are unique. -/
structure OneDefault (t : Tables) : Prop where
  ids : (t.views.map View.id).Nodup
  one : t.views.countP View.isDefault = 1

/-- The priorities of the default view and the others lie on two sides of `p`. -/
structure Arranged (p : ℤ) (t : Tables) : Prop extends OneDefault t where
  before : ∀ v ∈ t.views, v.isDefault = false → v.priority < p
  behind : ∀ v ∈ t.views, v.isDefault = true → p ≤ v.priority

/-- Clients that another view has do not get the default view: they get one of the others, and the
default view is for clients that no other has. -/
def Fallback (K : Crates) (t : Tables) : Prop :=
  ∀ ip geo,
    ((∃ v ∈ t.views, v.isDefault = false ∧ (viewMatch K v).matches ip geo) →
      ∃ v ∈ t.views, v.isDefault = false ∧ (buildFrom K t).viewFor ip geo = some (v.id, v.name)) ∧
    ∀ d ∈ t.views, d.isDefault = true → (buildFrom K t).viewFor ip geo = some (d.id, d.name) →
      ∀ v ∈ t.views, v.isDefault = false → (viewMatch K v).matches ip geo = false

/-- The views of the store are those of the table. -/
lemma mem_views_buildFrom {t : Tables} {m : ViewMatch} :
    m ∈ (buildFrom K t).views ↔ ∃ v ∈ t.views, viewMatch K v = m := by
  have hviews : (buildFrom K t).views.Perm (t.views.map (viewMatch K)) :=
    (List.perm_insertionSort _ _).trans
      (((List.perm_insertionSort _ _).trans (List.perm_insertionSort _ _)).map _)
  rw [hviews.mem_iff, List.mem_map]

/-- The view of a client is the first one that has it. -/
lemma viewFor_first {t : Tables} {ip : IpAddr} {geo : ClientGeo} {w : View} (hw : w ∈ t.views)
    (hmatch : (viewMatch K w).matches ip geo = true) :
    ∃ v ∈ t.views, (viewMatch K v).matches ip geo = true ∧ v.priority ≤ w.priority ∧
      (buildFrom K t).viewFor ip geo = some (v.id, v.name) := by
  have hmem : viewMatch K w ∈ (buildFrom K t).views := mem_views_buildFrom.mpr ⟨w, hw, rfl⟩
  obtain ⟨m, hm⟩ : ∃ m, (buildFrom K t).views.find? (·.matches ip geo) = some m := by
    have hsome : ((buildFrom K t).views.find? (·.matches ip geo)).isSome = true :=
      List.find?_isSome.mpr ⟨_, hmem, hmatch⟩
    exact Option.isSome_iff_exists.mp hsome
  obtain ⟨v, hv, rfl⟩ := mem_views_buildFrom.mp (List.mem_of_find?_eq_some hm)
  refine ⟨v, hv, List.find?_some (p := fun m : ViewMatch => m.matches ip geo) hm, ?_, ?_⟩
  · -- A view that has the client is not before the first one, and the others come in order.
    obtain ⟨-, pre, post, hsplit, hpre⟩ := List.find?_eq_some_iff_append.mp hm
    have hsorted := (buildFrom K t).viewsSorted
    rw [hsplit] at hsorted hmem
    rcases List.mem_append.mp hmem with hleft | hright
    · have hno := hpre _ hleft
      rw [hmatch] at hno
      cases hno
    · rcases List.mem_cons.mp hright with heq | hpost
      · exact (congrArg ViewMatch.priority heq).ge
      · exact List.rel_of_pairwise_cons (List.pairwise_append.mp hsorted).2.1 hpost
  · unfold ZoneStore.viewFor
    rw [hm]
    rfl

/-- Views with the default one behind the others. -/
lemma Arranged.fallback {t : Tables} {p : ℤ} (h : Arranged p t) : Fallback K t := by
  have hfirst : ∀ ip geo, ∀ w ∈ t.views, w.isDefault = false →
      (viewMatch K w).matches ip geo = true →
      ∃ v ∈ t.views, v.isDefault = false ∧ (buildFrom K t).viewFor ip geo = some (v.id, v.name) := by
    intro ip geo w hw hother hmatch
    obtain ⟨v, hv, -, hle, hview⟩ := viewFor_first hw hmatch
    refine ⟨v, hv, ?_, hview⟩
    cases hdefault : v.isDefault with
    | false => rfl
    | true =>
      have hlt := h.before w hw hother
      have hge := h.behind v hv hdefault
      omega
  intro ip geo
  refine ⟨fun ⟨w, hw, hother, hmatch⟩ => hfirst ip geo w hw hother hmatch, ?_⟩
  intro d hd hdefault hview w hw hother
  by_contra hmatch
  obtain ⟨v, hv, hfalse, hview'⟩ := hfirst ip geo w hw hother (by simpa using hmatch)
  have hid : v.id = d.id := by
    rw [hview] at hview'
    exact (congrArg Prod.fst (Option.some.inj hview')).symm
  have hsame : v = d := List.inj_on_of_nodup_map h.ids hv hd hid
  rw [hsame, hdefault] at hfalse
  cases hfalse

/-! ## Statements on views -/

/-- Being true stays true. -/
abbrev Stays (P : Tables → Prop) (t t' : Tables) : Prop :=
  P t → P t'

instance {P : Tables → Prop} : IsPreorder Tables (Stays P) where
  refl _ := id
  trans _ _ _ h h' hP := h' (h hP)

section Statements

variable {t : Tables} {i : ℕ} {p : ℤ}

/-- The rows after an update. -/
lemma mem_mapView {f : View → View} {v : View} (h : v ∈ (t.mapView i f).views) :
    ∃ w ∈ t.views, (w.id = i ∧ v = f w) ∨ (w.id ≠ i ∧ v = w) := by
  obtain ⟨w, hw, rfl⟩ := List.mem_map.mp h
  refine ⟨w, hw, ?_⟩
  by_cases hid : w.id = i
  · exact .inl ⟨hid, if_pos hid⟩
  · exact .inr ⟨hid, if_neg hid⟩

/-- Updating a row that keeps its id and stays the default view, or stays another. -/
lemma OneDefault.mapView (h : OneDefault t) {f : View → View}
    (hf : ∀ v, (f v).id = v.id ∧ (f v).isDefault = v.isDefault) : OneDefault (t.mapView i f) where
  ids := by
    have hid : View.id ∘ (fun v => if v.id = i then f v else v) = View.id := by
      funext v
      simp only [Function.comp_apply]
      split
      · exact (hf v).1
      · rfl
    unfold Tables.mapView
    dsimp only
    rw [List.map_map, hid]
    exact h.ids
  one := by
    have hdefault : View.isDefault ∘ (fun v => if v.id = i then f v else v) = View.isDefault := by
      funext v
      simp only [Function.comp_apply]
      split
      · exact (hf v).2
      · rfl
    unfold Tables.mapView
    dsimp only
    rw [List.countP_map, hdefault]
    exact h.one

/-- Updating a row whose priority stays on its side. -/
lemma Arranged.mapView (h : Arranged p t) {f : View → View}
    (hf : ∀ v, (f v).id = v.id ∧ (f v).isDefault = v.isDefault)
    (hbefore : ∀ v ∈ t.views, v.id = i → v.isDefault = false → (f v).priority < p)
    (hbehind : ∀ v ∈ t.views, v.id = i → v.isDefault = true → p ≤ (f v).priority) :
    Arranged p (t.mapView i f) where
  toOneDefault := h.toOneDefault.mapView hf
  before v hv hother := by
    obtain ⟨w, hw, ⟨hid, rfl⟩ | ⟨-, rfl⟩⟩ := mem_mapView hv
    · exact hbefore w hw hid ((hf w).2.symm.trans hother)
    · exact h.before v hw hother
  behind v hv hdefault := by
    obtain ⟨w, hw, ⟨hid, rfl⟩ | ⟨-, rfl⟩⟩ := mem_mapView hv
    · exact hbehind w hw hid ((hf w).2.symm.trans hdefault)
    · exact h.behind v hw hdefault

/-- A new view is not the default one. -/
lemma OneDefault.append (h : OneDefault t) {v : View} (hid : v.id = freshId (t.views.map View.id))
    (hother : v.isDefault = false) : OneDefault { t with views := t.views ++ [v] } where
  ids := by
    dsimp only
    rw [List.map_append, List.map_singleton, hid]
    exact nodup_append_freshId h.ids
  one := by
    dsimp only
    rw [List.countP_append, List.countP_singleton, hother, h.one]
    rfl

/-- A new view before the default one. -/
lemma Arranged.append (h : Arranged p t) {v : View} (hid : v.id = freshId (t.views.map View.id))
    (hother : v.isDefault = false) (hp : v.priority < p) :
    Arranged p { t with views := t.views ++ [v] } where
  toOneDefault := h.toOneDefault.append hid hother
  before w hw hfalse := by
    rcases List.mem_append.mp hw with hold | hnew
    · exact h.before w hold hfalse
    · rw [List.mem_singleton.mp hnew]
      exact hp
  behind w hw hdefault := by
    rcases List.mem_append.mp hw with hold | hnew
    · exact h.behind w hold hdefault
    · rw [List.mem_singleton.mp hnew, hother] at hdefault
      cases hdefault

/-- The views after a delete. -/
lemma views_removeView (t : Tables) (i : ℕ) :
    (t.removeView i).views = t.views.filter (·.id != i) := by
  unfold Tables.removeView
  split
  · rfl
  · rename_i hnone
    symm
    refine List.filter_eq_self.mpr fun v hv => ?_
    have hfind := List.find?_eq_none.mp (Option.not_isSome_iff_eq_none.mp hnone) v hv
    simpa using hfind

/-- Deleting a view that is not the default one. -/
lemma OneDefault.removeView (h : OneDefault t) {v : View} (hv : t.view? i = some v)
    (hother : v.isDefault = false) : OneDefault (t.removeView i) where
  ids := by
    rw [views_removeView]
    exact h.ids.sublist (List.filter_sublist.map _)
  one := by
    have hid : v.id = i := by simpa using List.find?_some hv
    rw [views_removeView, List.countP_filter, ← h.one]
    refine List.countP_congr fun w hw => ?_
    -- The default view has another id, as ids are unique.
    have hne : w.isDefault = true → w.id ≠ i := by
      intro hdefault heq
      have hsame : w = v :=
        List.inj_on_of_nodup_map h.ids hw (List.mem_of_find?_eq_some hv) (heq.trans hid.symm)
      rw [hsame, hother] at hdefault
      cases hdefault
    simpa using hne

lemma Arranged.removeView (h : Arranged p t) {v : View} (hv : t.view? i = some v)
    (hother : v.isDefault = false) : Arranged p (t.removeView i) where
  toOneDefault := h.toOneDefault.removeView hv hother
  before w hw := by
    rw [views_removeView] at hw
    exact h.before w (List.mem_of_mem_filter hw)
  behind w hw := by
    rw [views_removeView] at hw
    exact h.behind w (List.mem_of_mem_filter hw)

/-- Creating a view appends a row. -/
lemma stays_createView {P : Tables → Prop} {name : Str} {networks : List Str} {priority : ℤ}
    {countries continents : List Str} {asns : List ℕ}
    (h : ∀ t id, id = freshId (t.views.map View.id) → P t → P { t with
      views := t.views ++ [⟨id, name, networks, countries, continents, asns, priority, false⟩] }) :
    Keeps (Stays P) (Db.createView name networks priority countries continents asns) := by
  refine .execute ?_
  intro t a t' ht
  split at ht
  · cases ht
  · cases ht
    exact h t _ rfl

/-- Updating a view updates its row. -/
lemma stays_updateView {P : Tables → Prop} {name : Option Str} {networks : Option (List Str)}
    {priority : Option ℤ} {countries continents : Option (List Str)} {asns : Option (List ℕ)}
    (hrow : ∀ t f, (∀ v : View, (f v).id = v.id ∧ (f v).isDefault = v.isDefault ∧
      (f v).priority = v.priority) → P t → P (t.mapView i f))
    (hpriority : ∀ q ∈ priority, ∀ t, P t → P (t.mapView i fun v => { v with priority := q })) :
    Keeps (Stays P) (Db.updateView i name networks priority countries continents asns) := by
  have hname : ∀ n, Keeps (Stays P) (Db.setViewName i n) := by
    intro n
    refine .execute ?_
    intro t a t' ht
    split at ht
    · cases ht
    · cases ht
      exact hrow t _ fun _ => ⟨rfl, rfl, rfl⟩
  have hset : Keeps (Stays P) (Db.whenSome priority fun priority =>
      update (·.mapView i fun v => { v with priority })) := by
    cases priority with
    | none => exact .pure ()
    | some q => exact .update (hpriority q rfl)
  unfold Db.updateView
  exact .bind (Db.keeps_whenSome hname) fun _ =>
    .bind (Db.keeps_whenSome fun _ => .update fun t => hrow t _ fun _ => ⟨rfl, rfl, rfl⟩) fun _ =>
    .bind hset fun _ =>
    .bind (Db.keeps_whenSome fun _ => .update fun t => hrow t _ fun _ => ⟨rfl, rfl, rfl⟩) fun _ =>
    .bind (Db.keeps_whenSome fun _ => .update fun t => hrow t _ fun _ => ⟨rfl, rfl, rfl⟩) fun _ =>
    Db.keeps_whenSome fun _ => .update fun t => hrow t _ fun _ => ⟨rfl, rfl, rfl⟩

/-- A priority for a view that keeps it on its side of `p`. -/
def Fits (p : ℤ) (i : ℕ) (q : ℤ) (t : Tables) : Prop :=
  ∀ v ∈ t.views, v.id = i → (v.isDefault = false → q < p) ∧ (v.isDefault = true → p ≤ q)

lemma Fits.mapView {q : ℤ} (h : Fits p i q t) {f : View → View}
    (hf : ∀ v, (f v).id = v.id ∧ (f v).isDefault = v.isDefault) : Fits p i q (t.mapView i f) := by
  intro v hv hid
  obtain ⟨w, hw, ⟨hwid, rfl⟩ | ⟨-, rfl⟩⟩ := mem_mapView hv
  · rw [(hf w).2]
    exact h w hw hwid
  · exact h v hw hid

/-- Updating a view keeps the arrangement when the new priority does. -/
lemma stays_arranged_updateView {name : Option Str} {networks : Option (List Str)}
    {priority : Option ℤ} {countries continents : Option (List Str)} {asns : Option (List ℕ)} :
    Keeps (Stays fun t => Arranged p t ∧ ∀ q ∈ priority, Fits p i q t)
      (Db.updateView i name networks priority countries continents asns) := by
  refine stays_updateView ?_ ?_
  · rintro t f hf ⟨h, hfits⟩
    have hkeys : ∀ v, (f v).id = v.id ∧ (f v).isDefault = v.isDefault :=
      fun v => ⟨(hf v).1, (hf v).2.1⟩
    refine ⟨h.mapView hkeys (fun v hv _ hother => ?_) fun v hv _ hdefault => ?_,
      fun q hq => (hfits q hq).mapView hkeys⟩
    · rw [(hf v).2.2]
      exact h.before v hv hother
    · rw [(hf v).2.2]
      exact h.behind v hv hdefault
  · rintro q hq t ⟨h, hfits⟩
    exact ⟨h.mapView (fun _ => ⟨rfl, rfl⟩) (fun v hv hid => (hfits q hq v hv hid).1)
      fun v hv hid => (hfits q hq v hv hid).2, fun q' hq' => (hfits q' hq').mapView fun _ => ⟨rfl, rfl⟩⟩

end Statements

/-! ## Requests on views -/

namespace ViewRequest

variable {s : AppState} {p : ℤ}

/-- Every request leaves exactly one default view. -/
lemma oneDefault_after (a : ViewRequest) (h : OneDefault s.db) : OneDefault (a.after K s).db := by
  have hstays : Stays OneDefault s.db (a.after K s).db := by
    cases a with
    | create req =>
      exact Api.keeps_createView (Q := fun c c' => Stays OneDefault c.tables c'.tables)
        (stays_createView fun t id hid ht => ht.append hid rfl) s
    | update id req =>
      exact Api.keeps_updateView (Q := fun c c' => Stays OneDefault c.tables c'.tables)
        (stays_updateView (fun t f hf ht => ht.mapView fun v => ⟨(hf v).1, (hf v).2.1⟩)
          fun q _ t ht => ht.mapView fun _ => ⟨rfl, rfl⟩) s
    | delete id =>
      refine Api.keeps_deleteView (Q := fun c c' => Stays OneDefault c.tables c'.tables) ?_
      intro v hv hother c hc hone
      rcases update_cases (·.removeView id) c with hsame | hremoved
      · exact (congrArg OneDefault hsame).mpr hone
      · exact (congrArg OneDefault hremoved).mpr (hone.removeView (hc ▸ hv) hother)
  exact hstays h

/-- A view name passes its check when it is valid. -/
lemma isOk_viewName (name : Str) : (Api.viewName name).isOk = Api.validViewName name := by
  unfold Api.viewName
  cases Api.validViewName name <;> rfl

/-- A new view that fails a check changes nothing. -/
lemma create_db_of_not_accepted {req : Api.ViewCreate}
    (h : (create req).accepted K s.db = false) : ((create req).after K s).db = s.db := by
  change ((Api.createView K req).after s).db = s.db
  unfold Api.createView
  rw [Api.after_checked_bind, Api.after_checked_bind, isOk_viewName]
  by_cases hname : Api.validViewName req.name = true
  · by_cases hnets : (Api.validateNetworks K req.networks).isOk = true
    · have hused : s.db.views.any (·.name == req.name) = true := by
        simpa [accepted, hname, hnets] using h
      rw [if_pos hname, if_pos hnets]
      obtain ⟨e, hres, htables⟩ : ∃ e, (Db.createView req.name req.networks req.priority
          (Api.upper req.countries) (Api.upper req.continents) req.asns).result s.conn = .error e ∧
          ((Db.createView req.name req.networks req.priority (Api.upper req.countries)
            (Api.upper req.continents) req.asns).after s.conn).tables = s.db := by
        unfold Db.createView execute
        exact statement_error (if_pos hused)
      rw [after_runDb_bind_error _ hres]
      exact htables
    · rw [if_pos hname, if_neg hnets]
  · rw [if_neg hname]

/-- A name that another view has stops the update at its first statement. -/
lemma updateView_conflict {id : ℕ} {v : View} {name : Str} {networks : Option (List Str)}
    {priority : Option ℤ} {countries continents : Option (List Str)} {asns : Option (List ℕ)}
    (k : Unit → App (Option View)) (hv : s.db.view? id = some v)
    (hused : s.db.views.any (fun w => w.id != id && w.name == name) = true) :
    ((runDb (Db.updateView id (some name) networks priority countries continents asns) >>= k).after
      s).db = s.db := by
  have hconflict : ((s.db.view? id).isSome && s.db.views.any fun w =>
      w.id != id && w.name == name) = true := by
    rw [hv, hused]
    rfl
  obtain ⟨e, hres, htables⟩ : ∃ e, (Db.setViewName id name).result s.conn = .error e ∧
      ((Db.setViewName id name).after s.conn).tables = s.db := by
    unfold Db.setViewName execute
    exact statement_error (if_pos hconflict)
  have hstop : (Db.updateView id (some name) networks priority countries continents asns).result
      s.conn = .error e := by
    unfold Db.updateView Db.whenSome
    dsimp only
    rw [EStateM.result_bind, hres]
  rw [after_runDb_bind_error _ hstop]
  unfold Db.updateView Db.whenSome
  dsimp only
  rw [EStateM.after_bind, hres]
  exact htables

/-- An update of a view that fails a check changes nothing. -/
lemma update_db_of_not_accepted {id : ℕ} {req : Api.ViewUpdate}
    (h : (update id req).accepted K s.db = false) : ((update id req).after K s).db = s.db := by
  have hstays : Stays (· = s.db) s.db ((Api.updateView K id req).after s).db := by
    unfold Api.updateView Db.view
    refine keepsDb_select_bind (R := Stays (· = s.db)) fun s₁ hs₁ _ => ?_
    cases hv : s.db.view? id with
    | none => exact hs₁
    | some v =>
      simp only [Api.orNotFound, pure_bind]
      rw [Api.after_checkedWhen_bind, Api.after_refuseIf_bind, Api.after_checkedWhen_bind]
      simp only [isOk_viewName]
      by_cases hname : req.name.all Api.validViewName = true
      · by_cases hdefault : (req.networks.isSome && v.isDefault) = true
        · rw [if_pos hname, if_pos hdefault]
          exact hs₁
        · by_cases hnets : req.networks.all (fun n => (Api.validateNetworks K n).isOk) = true
          · rw [if_pos hname, if_neg hdefault, if_pos hnets]
            have hused : req.name.any (fun name => s.db.views.any fun w =>
                w.id != id && w.name == name) = true := by
              rw [Bool.not_eq_true] at hdefault
              simpa only [accepted, hv, Option.any_some, hname, hdefault, hnets, Bool.not_false,
                Bool.true_and, Bool.not_eq_false'] using h
            obtain ⟨name, hreq, hused⟩ := (Option.any_eq_true _ _).mp hused
            rw [← hs₁] at hv hused
            rw [hreq]
            exact (updateView_conflict _ hv hused).trans hs₁
          · rw [if_pos hname, if_neg hdefault, if_neg hnets]
            exact hs₁
      · rw [if_neg hname]
        exact hs₁
  exact hstays rfl

/-- A request that fails a check changes nothing. -/
lemma after_db_of_not_accepted (a : ViewRequest) (h : a.accepted K s.db = false) :
    (a.after K s).db = s.db := by
  cases a with
  | create req => exact create_db_of_not_accepted h
  | update id req => exact update_db_of_not_accepted h
  | delete id => cases h

/-- Creating a view before the default one. -/
lemma arranged_create {req : Api.ViewCreate} (h : Arranged p s.db)
    (horder : (create req).KeepsOrder s.db) :
    ∃ p', Arranged p' ((create req).after K s).db := by
  refine ⟨max p (req.priority + 1), ?_⟩
  have hraised : Arranged (max p (req.priority + 1)) s.db := by
    refine ⟨h.toOneDefault, fun v hv hother => ?_, fun v hv hdefault => ?_⟩
    · exact (h.before v hv hother).trans_le (le_max_left _ _)
    · exact max_le (h.behind v hv hdefault) (horder v hv hdefault)
  refine Api.keeps_createView
    (Q := fun c c' => Stays (Arranged (max p (req.priority + 1))) c.tables c'.tables)
    (stays_createView fun t id hid ht => ht.append hid rfl ?_) s hraised
  exact (Int.lt_succ _).trans_le (le_max_right _ _)

/-- Updating a view whose priority stays on its side of the others. -/
lemma arranged_update {id : ℕ} {req : Api.ViewUpdate} {v : View} (h : Arranged p s.db)
    (hv : s.db.view? id = some v) (horder : (update id req).KeepsOrder s.db) :
    ∃ p', Arranged p' ((update id req).after K s).db := by
  have hid : v.id = id := by simpa using List.find?_some hv
  have hmem : v ∈ s.db.views := List.mem_of_find?_eq_some hv
  have hsame : ∀ w ∈ s.db.views, w.id = id → w = v :=
    fun w hw heq => List.inj_on_of_nodup_map h.ids hw hmem (heq.trans hid.symm)
  have hgo : ∀ p', Arranged p' s.db → (∀ q ∈ req.priority, Fits p' id q s.db) →
      ∃ p', Arranged p' ((update id req).after K s).db := by
    intro p' harr hfits
    exact ⟨p', (Api.keeps_updateView (Q := fun c c' => Stays (fun t => Arranged p' t ∧
      ∀ q ∈ req.priority, Fits p' id q t) c.tables c'.tables)
      stays_arranged_updateView s ⟨harr, hfits⟩).1⟩
  cases hq : req.priority with
  | none =>
    refine hgo p h fun q hmem => ?_
    rw [hq] at hmem
    cases hmem
  | some q =>
    have hguard := horder q hq v hmem hid
    cases hdefault : v.isDefault with
    | true =>
      -- The default view moves: the other ones are before its old place and its new one.
      refine hgo (min p q) ⟨h.toOneDefault, fun w hw hother => ?_, fun w hw hw' => ?_⟩ ?_
      · have hnew := hguard w hw (by rw [hother, hdefault]; exact Bool.false_ne_true)
        rw [if_pos hdefault] at hnew
        exact lt_min (h.before w hw hother) hnew
      · exact (min_le_left _ _).trans (h.behind w hw hw')
      · intro q' hq' w hw heq
        rw [hq] at hq'
        cases hq'
        rw [hsame w hw heq, hdefault]
        exact ⟨fun hfalse => (Bool.false_ne_true hfalse.symm).elim, fun _ => min_le_right _ _⟩
    | false =>
      refine hgo (max p (q + 1)) ⟨h.toOneDefault, fun w hw hother => ?_, fun w hw hw' => ?_⟩ ?_
      · exact (h.before w hw hother).trans_le (le_max_left _ _)
      · have hnew := hguard w hw (by rw [hw', hdefault]; exact Bool.false_ne_true.symm)
        rw [if_neg (by rw [hdefault]; exact Bool.false_ne_true)] at hnew
        exact max_le (h.behind w hw hw') hnew
      · intro q' hq' w hw heq
        rw [hq] at hq'
        cases hq'
        rw [hsame w hw heq, hdefault]
        exact ⟨fun _ => (Int.lt_succ _).trans_le (le_max_right _ _),
          fun htrue => (Bool.false_ne_true htrue).elim⟩

/-- Deleting a view. -/
lemma arranged_delete {id : ℕ} (h : Arranged p s.db) : Arranged p ((delete id).after K s).db := by
  refine Api.keeps_deleteView (Q := fun c c' => Stays (Arranged p) c.tables c'.tables) ?_ h
  intro v hv hother c hc harr
  rcases update_cases (·.removeView id) c with hsame | hremoved
  · exact (congrArg (Arranged p) hsame).mpr harr
  · exact (congrArg (Arranged p) hremoved).mpr (harr.removeView (hc ▸ hv) hother)

/-- A request that sets a priority only where it keeps the default view behind the others. -/
def Orderly (K : Crates) (s : AppState) (a : ViewRequest) : Prop :=
  a.accepted K s.db = true → a.KeepsOrder s.db

/-- Such a request leaves the default view behind the others. -/
lemma arranged_after {a : ViewRequest} (h : Arranged p s.db) (ha : a.Orderly K s) :
    ∃ p', Arranged p' (a.after K s).db := by
  cases haccepted : a.accepted K s.db with
  | false =>
    refine ⟨p, ?_⟩
    rw [after_db_of_not_accepted a haccepted]
    exact h
  | true =>
    have horder := ha haccepted
    cases a with
    | create req => exact arranged_create h horder
    | update id req =>
      obtain ⟨v, hv, -⟩ := (Option.any_eq_true _ _).mp haccepted
      exact arranged_update h hv horder
    | delete id => exact ⟨p, arranged_delete h⟩

/-! ## Sequences of requests -/

/-- The views that `ensure_default_view` makes. -/
lemma views_ensureDefaultView {c : Conn Tables} (hempty : c.tables.views = [])
    (hok : Db.ensureDefaultView.result c = .ok ()) :
    (Db.ensureDefaultView.after c).tables.views = [Db.defaultView 1] := by
  unfold Db.ensureDefaultView at hok ⊢
  obtain ⟨count, hcount, hrest, hafter⟩ := EStateM.bind_ok hok
  rw [hafter]
  obtain ⟨t, hread, hsame⟩ := statement_ok hcount
  cases hread
  unfold select at hrest ⊢
  rw [hsame] at hrest ⊢
  simp only [hempty, List.countP_nil, beq_self_eq_true, if_true] at hrest ⊢
  obtain ⟨t, hinsert, hafter'⟩ := statement_ok hrest
  unfold execute
  rw [hafter']
  change (if c.tables.views.any _ then _ else _) = _ at hinsert
  rw [hempty] at hinsert
  cases hinsert
  change c.tables.views ++ [Db.defaultView (freshId (c.tables.views.map View.id))] = _
  rw [hempty]
  rfl

/-- The default view alone. -/
lemma arranged_defaultView {t : Tables} (h : t.views = [Db.defaultView 1]) : Arranged 1000 t := by
  refine ⟨⟨?_, ?_⟩, fun v hv hother => ?_, fun v hv _ => ?_⟩
  · rw [h]
    exact List.nodup_singleton _
  · rw [h]
    rfl
  · rw [h, List.mem_singleton] at hv
    rw [hv] at hother
    cases hother
  · rw [h, List.mem_singleton] at hv
    rw [hv]
    exact le_rfl

/-- After every sequence of requests to a database made by `ensure_default_view` there is exactly one
default view; when every request that is accepted puts its view on the right side of the default one,
clients that another view has get another view. -/
theorem default_is_fallback (K : Crates) (c : Conn Tables) (hempty : c.tables.views = [])
    (hok : Db.ensureDefaultView.result c = .ok ()) (s : AppState)
    (hs : s.conn = Db.ensureDefaultView.after c) (as : List ViewRequest) (s' : AppState)
    (hrun : run (step K) s as = some s') :
    s'.db.views.countP View.isDefault = 1 ∧
      (Along (step K) (Orderly K) s as → Fallback K s'.db) := by
  have hstart : Arranged 1000 s.db := by
    rw [AppState.db, hs]
    exact arranged_defaultView (views_ensureDefaultView hempty hok)
  constructor
  · have hstep : ∀ (s : AppState) (a : ViewRequest) (s' : AppState), OneDefault s.db → True →
        step K s a = some s' → OneDefault s'.db := by
      rintro s a s' h - ⟨rfl⟩
      exact oneDefault_after a h
    have hone := run_invariant hstep hstart.toOneDefault
      (along_of_forall (fun _ _ => trivial) s as) hrun
    exact hone.one
  · intro horderly
    have hstep : ∀ (s : AppState) (a : ViewRequest) (s' : AppState), (∃ p, Arranged p s.db) →
        Orderly K s a → step K s a = some s' → ∃ p, Arranged p s'.db := by
      rintro s a s' ⟨p, h⟩ ha ⟨rfl⟩
      exact arranged_after h ha
    obtain ⟨p, hp⟩ := run_invariant hstep ⟨1000, hstart⟩ horderly hrun
    exact hp.fallback

/-- Crates that read the networks of the default view and those of a company. -/
def cidrCrates : Crates :=
  { plainCrates with
    parseIpNet := fun cidr =>
      if cidr = "0.0.0.0/0".toList then some ⟨.v4 0, 0⟩
      else if cidr = "::/0".toList then some ⟨.v6 0, 0⟩
      else if cidr = "10.0.0.0/8".toList then some ⟨.v4 0x0a000000, 8⟩
      else none }

/-- A new view for a company network. -/
def internalView (priority : ℤ) : Api.ViewCreate :=
  ⟨"internal", ["10.0.0.0/8"], priority, [], [], []⟩

/-- A new installation. -/
def installed : AppState :=
  ⟨Db.ensureDefaultView.after ⟨.empty, [], []⟩, mkStore [] [], [], []⟩

/-- A view before the default one gets its clients. -/
theorem default_is_fallback_internal :
    ∃ s', run (step cidrCrates) installed [.create (internalView 10)] = some s' ∧
      Fallback cidrCrates s'.db ∧
      (buildFrom cidrCrates s'.db).viewFor (.v4 0x0a000005) {} = some (2, "internal".toList) := by
  refine ⟨_, rfl, ?_, by decide +kernel⟩
  refine (default_is_fallback cidrCrates ⟨.empty, [], []⟩ rfl rfl installed rfl
    [.create (internalView 10)] _ rfl).2 ⟨fun _ d hd hdefault => ?_, fun _ _ => trivial⟩
  have hall : ∀ d ∈ installed.db.views, (10 : ℤ) < d.priority := by decide +kernel
  exact hall d hd

/-- A view with the priority of the default one gets no client: it comes later in the table. -/
theorem default_before_internal :
    ∃ s', run (step cidrCrates) installed [.create (internalView 1000)] = some s' ∧
      ¬ Fallback cidrCrates s'.db := by
  refine ⟨_, rfl, fun h => ?_⟩
  have hdefault := (h (.v4 0x0a000005) {}).2 (Db.defaultView 1) (by decide +kernel) rfl
    (by decide +kernel) ⟨2, "internal", ["10.0.0.0/8"], [], [], [], 1000, false⟩ (by decide +kernel) rfl
  revert hdefault
  decide +kernel

end ViewRequest

end Nomina
