import Eleva.Database.References

/-!
# Database - The footprint of a tenant's calls

What calls make of a tenant's rows: the rows that they may leave, and the keys that they may take
away.  Rows of other tenants are left alone by such calls when they refer to no key that may go, and
do not show in them when they hold the same of the keys that the rows have or refer to.

Main results:

- Definition {lit}`Footprint.Covers`: an operation that keeps to a footprint.
- Theorem {lit}`root_covered`: what such an operation makes of rows of the footprint.
- Theorem {lit}`Statement.Alike.cascade`: the foreign keys do the same after two statements that
  differ in the rows of other tenants only.
- Definition {lit}`Apart`: databases whose other rows are apart from a footprint.
- Theorem {lit}`execute_contained`: an operation inside a footprint leaves the rows of other
  tenants alone, and they do not show in it.
-/

namespace Eleva
namespace Database

/-- What calls make of a tenant's rows: the rows that they may leave, the stored ones among them,
and the keys that they may take away. -/
structure Footprint (Row : Type) where
  rows : Row → Prop
  gone : (Row → Option String) → String → Prop

variable {Row : Type} [TenantRow Row]

/-- A change inside the footprint: it leaves a row of it, and the keys that it takes away may go. -/
structure Footprint.Allows (fp : Footprint Row) (schema : Schema Row) (c : Change Row) : Prop where
  rows : ∀ r, c.2 = some r → fp.rows r
  keys : ∀ fk ∈ schema.foreignKeys, ∀ v, c.1.bind fk.key = some v →
    c.2.bind fk.key = some v ∨ fp.gone fk.key v

/-- Nested writes below {lit}`parent` inside the footprint. -/
structure Footprint.CoversNested (fp : Footprint Row) (schema : Schema Row) (n : Nested Row)
    (parent : Row) : Prop where
  creates : ∀ c ∈ n.creates parent, fp.rows c
  change : ∀ c, fp.rows c → n.touches parent c = true → fp.Allows schema (some c, n.change c)

/-- An update of a row inside the footprint. -/
structure Footprint.CoversUpdate (fp : Footprint Row) (schema : Schema Row) (d : Payload Row)
    (r : Row) : Prop where
  change : fp.Allows schema (some r, some (d.apply r))
  nested : fp.CoversNested schema d.nested (d.apply r)

/-- An operation inside the footprint, with its arguments as they reach the client. -/
def Footprint.Covers (fp : Footprint Row) (schema : Schema Row) (m : Delegate Row)
    (uuid : ℕ → Id) (args : Args Row) : Operation → Prop
  | .create =>
      let r := args.data.apply (m.blank (uuid 0))
      fp.rows r ∧ fp.CoversNested schema args.data.nested r
  | .createManyAndReturn =>
      ∀ r ∈ args.dataMany.mapIdx fun i d => d.apply (m.blank (uuid i)), fp.rows r
  | .update =>
      ∀ r, fp.rows r → args.whereArg.admits m r = true → fp.CoversUpdate schema args.data r
  | .delete =>
      ∀ r, fp.rows r → args.whereArg.admits m r = true → fp.Allows schema (some r, none)
  | .findUnique | .findUniqueOrThrow | .findFirst | .findFirstOrThrow | .findMany | .count
  | .createMany | .updateMany | .upsert | .deleteMany | .aggregate | .groupBy => True

/-- The foreign keys stay in the footprint: where a row names a key that may go, what they make of
it is a change inside the footprint. -/
def Footprint.Closed (fp : Footprint Row) (schema : Schema Row) : Prop :=
  ∀ fk ∈ schema.foreignKeys, ∀ r v, fp.rows r → fk.column r = some v → fp.gone fk.key v →
    ∀ new : Option String, (∀ w, new = some w → ∃ p, fp.rows p ∧ fk.key p = some w) →
      fp.Allows schema (some r, fk.act new r)

/-- No row refers to a key that may go. -/
def Footprint.ClearOf (fp : Footprint Row) (schema : Schema Row) (rest : List Row) : Prop :=
  ∀ fk ∈ schema.foreignKeys, ∀ v, fp.gone fk.key v → v ∉ rest.filterMap fk.column

/-- The keys that a row has and those that it refers to. -/
def Schema.names (schema : Schema Row) (r : Row) : List ((Row → Option String) × String) :=
  (schema.uniqueKeys.filterMap fun key => (key r).map fun v => (key, v)) ++
    schema.foreignKeys.filterMap fun fk => (fk.column r).map fun v => (fk.key, v)

/-! ## Changes inside a footprint -/

section Footprint

variable {fp : Footprint Row} {schema : Schema Row} {rows rows' rows'' created : List Row}
  {r r' : Row} {x : Option Row}

theorem Schema.mem_names_of_key {key : Row → Option String} {v : String}
    (hkey : key ∈ schema.uniqueKeys) (h : key r = some v) : (key, v) ∈ schema.names r :=
  List.mem_append_left _ (List.mem_filterMap.mpr ⟨key, hkey, by rw [h]; rfl⟩)

theorem Schema.mem_names_of_column {fk : ForeignKey Row} {v : String}
    (hfk : fk ∈ schema.foreignKeys) (h : fk.column r = some v) : (fk.key, v) ∈ schema.names r :=
  List.mem_append_right _ (List.mem_filterMap.mpr ⟨fk, hfk, by rw [h]; rfl⟩)

theorem Footprint.Allows.refl (h : fp.rows r) : fp.Allows schema (some r, some r) where
  rows := by
    rintro _ ⟨⟩
    exact h
  keys _ _ _ hv := Or.inl hv

theorem Footprint.Allows.trans (h : fp.Allows schema (some r, some r'))
    (h' : fp.Allows schema (some r', x)) : fp.Allows schema (some r, x) where
  rows := h'.rows
  keys fk hfk v hv := by
    rcases h.keys fk hfk v hv with hv' | hgone
    · exact h'.keys fk hfk v hv'
    · exact Or.inr hgone

/-- Rows of the footprint, and the rows that changes inside it make of them. -/
structure Footprint.Leads (fp : Footprint Row) (schema : Schema Row)
    (rows rows' : List Row) : Prop where
  found : ∀ r ∈ rows, fp.rows r
  left : ∀ r ∈ rows', fp.rows r
  moved : ∀ r ∈ rows, ∃ x, fp.Allows schema (some r, x) ∧ ∀ r', x = some r' → r' ∈ rows'

theorem Footprint.Leads.refl (h : ∀ r ∈ rows, fp.rows r) : fp.Leads schema rows rows where
  found := h
  left := h
  moved r hr := ⟨some r, .refl (h r hr), by rintro _ ⟨⟩; exact hr⟩

theorem Footprint.Leads.trans (h : fp.Leads schema rows rows')
    (h' : fp.Leads schema rows' rows'') : fp.Leads schema rows rows'' where
  found := h.found
  left := h'.left
  moved r hr := by
    rcases h.moved r hr with ⟨x, hx, hmem⟩
    cases x with
    | none => exact ⟨none, hx, by rintro _ ⟨⟩⟩
    | some r' =>
        rcases h'.moved r' (hmem r' rfl) with ⟨y, hy, hmem'⟩
        exact ⟨y, hx.trans hy, hmem'⟩

theorem Footprint.Leads.append (h : fp.Leads schema rows rows')
    (hcreated : ∀ r ∈ created, fp.rows r) : fp.Leads schema rows (rows' ++ created) where
  found := h.found
  left r hr := (List.mem_append.mp hr).elim (h.left r) (hcreated r)
  moved r hr := by
    rcases h.moved r hr with ⟨x, hx, hmem⟩
    exact ⟨x, hx, fun r' hr' => List.mem_append_left _ (hmem r' hr')⟩

theorem Footprint.leads_filterMap {f : Row → Option Row} (h : ∀ r ∈ rows, fp.rows r)
    (hf : ∀ r ∈ rows, fp.Allows schema (some r, f r)) :
    fp.Leads schema rows (rows.filterMap f) where
  found := h
  left r' hr' := by
    rcases List.mem_filterMap.mp hr' with ⟨r, hr, hrun⟩
    exact (hf r hr).rows r' hrun
  moved r hr := ⟨f r, hf r hr, fun _ hr' => List.mem_filterMap.mpr ⟨r, hr, hr'⟩⟩

/-- A key of the rows stays or may go. -/
theorem Footprint.Leads.keys (h : fp.Leads schema rows rows') {fk : ForeignKey Row}
    (hfk : fk ∈ schema.foreignKeys) {v : String} (hv : v ∈ rows.filterMap fk.key) :
    v ∈ rows'.filterMap fk.key ∨ fp.gone fk.key v := by
  rcases List.mem_filterMap.mp hv with ⟨r, hr, hkey⟩
  rcases h.moved r hr with ⟨x, hx, hmem⟩
  rcases hx.keys fk hfk v hkey with hkept | hgone
  · rcases Option.bind_eq_some_iff.mp hkept with ⟨r', hr', hkey'⟩
    exact Or.inl (List.mem_filterMap.mpr ⟨r', hmem r' hr', hkey'⟩)
  · exact Or.inr hgone

/-- A narrower condition keeps the operation in the footprint. -/
theorem Footprint.Covers.narrow {m : Delegate Row} {uuid : ℕ → Id} {op : Operation}
    {args args' : Args Row} (h : fp.Covers schema m uuid args op) (hdata : args'.data = args.data)
    (hmany : args'.dataMany = args.dataMany)
    (hadmits : ∀ r, args'.whereArg.admits m r = true → args.whereArg.admits m r = true) :
    fp.Covers schema m uuid args' op := by
  cases op with
  | create =>
      unfold Footprint.Covers at h ⊢
      rwa [hdata]
  | createManyAndReturn =>
      unfold Footprint.Covers at h ⊢
      rwa [hmany]
  | update =>
      unfold Footprint.Covers at h ⊢
      rw [hdata]
      exact fun r hrow hr => h r hrow (hadmits r hr)
  | delete => exact fun r hrow hr => h r hrow (hadmits r hr)
  | findUnique | findUniqueOrThrow | findFirst | findFirstOrThrow | findMany | count | createMany
  | updateMany | upsert | deleteMany | aggregate | groupBy => trivial

/-- What an operation makes of rows of the footprint. -/
structure Root.Covered (t : Root Row) (fp : Footprint Row) (schema : Schema Row)
    (rows : List Row) : Prop where
  changes : ∀ c ∈ t.changes, ∀ r, c.2 = some r → fp.rows r
  leads : fp.Leads schema rows t.rows
  nested : ∀ parent ∈ t.returned, fp.CoversNested schema t.nested parent

theorem Footprint.coversNested_default (fp : Footprint Row) (schema : Schema Row)
    (parent : Row) : fp.CoversNested schema {} parent := by
  constructor
  · intro c hc
    cases hc
  · intro c _ hc
    cases hc

theorem findRoot_covered (h : ∀ r ∈ rows, fp.rows r) (found : List Row) :
    (findRoot found rows).Covered fp schema rows where
  changes c hc := by cases hc
  leads := .refl h
  nested parent _ := fp.coversNested_default schema parent

theorem createRoot_covered {m : Delegate Row} {uuid : ℕ → Id} {d : Payload Row}
    (hrows : ∀ r ∈ rows, fp.rows r) (hnew : fp.rows (d.apply (m.blank (uuid 0))))
    (hnested : fp.CoversNested schema d.nested (d.apply (m.blank (uuid 0)))) :
    (createRoot m uuid d rows).Covered fp schema rows := by
  refine ⟨?_, (Footprint.Leads.refl hrows).append ?_, ?_⟩
  · intro c hc r hr
    rcases List.mem_singleton.mp hc with rfl
    cases hr
    exact hnew
  · intro r hr
    rcases List.mem_singleton.mp hr with rfl
    exact hnew
  · intro parent hp
    rcases List.mem_singleton.mp hp with rfl
    exact hnested

theorem insertRoot_covered {m : Delegate Row} {uuid : ℕ → Id} {datas : List (Payload Row)}
    (hrows : ∀ r ∈ rows, fp.rows r)
    (hnew : ∀ r ∈ datas.mapIdx fun i d => d.apply (m.blank (uuid i)), fp.rows r) :
    (insertRoot m uuid datas rows).Covered fp schema rows := by
  refine ⟨?_, (Footprint.Leads.refl hrows).append hnew, fun parent _ =>
    fp.coversNested_default schema parent⟩
  intro c hc r hr
  rcases List.mem_map.mp hc with ⟨r', hr', rfl⟩
  cases hr
  exact hnew r hr'

theorem updateRoot_covered {matching : Row → Bool} {d : Payload Row} {target : Row}
    (hrows : ∀ r ∈ rows, fp.rows r)
    (h : ∀ r, fp.rows r → matching r = true → fp.CoversUpdate schema d r)
    (htarget : target ∈ rows.filter matching) :
    (updateRoot matching d target rows).Covered fp schema rows := by
  have hupdate : ∀ r ∈ rows.filter matching, fp.CoversUpdate schema d r := by
    intro r hr
    rcases List.mem_filter.mp hr with ⟨hr, hmatch⟩
    exact h r (hrows r hr) hmatch
  refine ⟨?_, ?_, ?_⟩
  · intro c hc r hr
    rcases List.mem_map.mp hc with ⟨r', hr', rfl⟩
    exact (hupdate r' hr').change.rows r hr
  · simp only [updateRoot]
    rw [← List.filterMap_eq_map]
    refine Footprint.leads_filterMap hrows fun r hr => ?_
    simp only [Function.comp_apply]
    split
    · rename_i hmatch
      exact (h r (hrows r hr) hmatch).change
    · exact .refl (hrows r hr)
  · intro parent hp
    rcases List.mem_singleton.mp hp with rfl
    exact (hupdate target htarget).nested

theorem deleteRoot_covered {matching : Row → Bool} {found : List Row}
    (hrows : ∀ r ∈ rows, fp.rows r)
    (h : ∀ r, fp.rows r → matching r = true → fp.Allows schema (some r, none)) :
    (deleteRoot matching found rows).Covered fp schema rows := by
  refine ⟨?_, ⟨hrows, ?_, ?_⟩, fun parent _ => fp.coversNested_default schema parent⟩
  · intro c hc r hr
    rcases List.mem_map.mp hc with ⟨r', _, rfl⟩
    cases hr
  · intro r hr
    exact hrows r (List.mem_filter.mp hr).1
  · intro r hr
    cases hmatch : matching r with
    | true => exact ⟨none, h r (hrows r hr) hmatch, by rintro _ ⟨⟩⟩
    | false =>
        refine ⟨some r, .refl (hrows r hr), ?_⟩
        rintro _ ⟨⟩
        exact List.mem_filter.mpr ⟨hr, by simp [hmatch]⟩

/-- An operation inside the footprint keeps rows of the footprint in it. -/
theorem root_covered {m : Delegate Row} {uuid : ℕ → Id} {args : Args Row} {op : Operation}
    {t : Root Row} (hop : op ∉ unsupportedOperations) (h : fp.Covers schema m uuid args op)
    (hrows : ∀ r ∈ rows, fp.rows r) (ht : root m uuid op args rows = .ok t) :
    t.Covered fp schema rows := by
  cases op with
  | findUnique | findFirst | findMany =>
      cases ht
      exact findRoot_covered hrows _
  | findUniqueOrThrow | findFirstOrThrow =>
      simp only [root] at ht
      split at ht
      · cases ht
      · cases ht
        exact findRoot_covered hrows _
  | count =>
      cases ht
      refine ⟨?_, .refl hrows, ?_⟩
      · intro c hc
        cases hc
      · intro parent hp
        cases hp
  | create =>
      cases ht
      exact createRoot_covered hrows h.1 h.2
  | createManyAndReturn =>
      cases ht
      exact insertRoot_covered hrows h
  | update =>
      simp only [root] at ht
      split at ht
      · cases ht
      · rename_i target others hmatched
        cases ht
        exact updateRoot_covered hrows h (hmatched ▸ List.mem_cons_self)
  | delete =>
      simp only [root] at ht
      split at ht
      · cases ht
      · cases ht
        exact deleteRoot_covered hrows h
  | createMany | updateMany | upsert | deleteMany | aggregate | groupBy =>
      exact absurd (by simp [unsupportedOperations]) hop

/-- Its nested writes keep them in it too. -/
theorem Root.Covered.after {t : Root Row} (h : t.Covered fp schema rows) :
    fp.Leads schema rows t.after := by
  unfold Root.after
  split <;> rename_i hreturned
  · rename_i parent
    have hn := h.nested parent (by rw [hreturned]; exact List.mem_singleton_self parent)
    refine h.leads.trans (Footprint.Leads.append ?_ hn.creates)
    refine Footprint.leads_filterMap h.leads.left fun r hr => ?_
    split
    · rename_i htouch
      exact hn.change r (h.leads.left r hr) htouch
    · exact .refl (h.leads.left r hr)
  · exact h.leads

theorem Root.Covered.nestedChanges {t : Root Row} (h : t.Covered fp schema rows) :
    ∀ c ∈ t.nestedChanges, ∀ r, c.2 = some r → fp.rows r := by
  intro c hc r hr
  unfold Root.nestedChanges at hc
  split at hc <;> rename_i hreturned
  · rename_i parent
    have hn := h.nested parent (by rw [hreturned]; exact List.mem_singleton_self parent)
    rcases List.mem_append.mp hc with hc | hc
    · rcases List.mem_map.mp hc with ⟨r', hr', rfl⟩
      rcases List.mem_filter.mp hr' with ⟨hr', htouch⟩
      exact (hn.change r' (h.leads.left r' hr') htouch).rows r hr
    · rcases List.mem_map.mp hc with ⟨r', hr', rfl⟩
      cases hr
      exact hn.creates r hr'
  · cases hc

end Footprint

/-! ## Rows of other tenants -/

section Others

variable {schema : Schema Row} {fp : Footprint Row} {T : Id} {rest rest' rows rows' : List Row}
  {s s' : Statement Row}

/-- A tenant's rows and the others make up the table. -/
theorem own_append_others_perm (T : Id) (rows : List Row) :
    (own T rows ++ others T rows).Perm rows :=
  List.filter_append_perm (owned T) rows

/-- Membership of a value among the keys of a table, by tenant. -/
theorem mem_filterMap_own_others (T : Id) (rows : List Row) (key : Row → Option String)
    (v : String) :
    v ∈ rows.filterMap key ↔
      v ∈ (own T rows).filterMap key ∨ v ∈ (others T rows).filterMap key := by
  rw [← ((own_append_others_perm T rows).filterMap key).mem_iff, List.filterMap_append,
    List.mem_append]

theorem Schema.unique_of_accepts (h : schema.accepts rows = true) {key : Row → Option String}
    (hkey : key ∈ schema.uniqueKeys) : (rows.filterMap key).Nodup := by
  unfold Schema.accepts at h
  rw [Bool.and_eq_true, List.all_eq_true] at h
  exact of_decide_eq_true (h.1 key hkey)

theorem Schema.resolved_of_accepts (h : schema.accepts rows = true) {fk : ForeignKey Row}
    (hfk : fk ∈ schema.foreignKeys) {v : String} (hv : v ∈ rows.filterMap fk.column) :
    v ∈ rows.filterMap fk.key := by
  unfold Schema.accepts Schema.resolves at h
  rw [Bool.and_eq_true, List.all_eq_true, List.all_eq_true] at h
  have hall := h.2 fk hfk
  rw [List.all_eq_true] at hall
  simpa using hall v hv

/-- What surrounds a tenant's rows in two databases: other rows that refer to no key that may go,
and hold the same of the keys that rows of the footprint have or refer to. -/
structure Outside (schema : Schema Row) (fp : Footprint Row) (rest rest' : List Row) : Prop where
  clear : fp.ClearOf schema rest
  clear' : fp.ClearOf schema rest'
  names : ∀ r, fp.rows r → ∀ n ∈ schema.names r,
    (n.2 ∈ rest.filterMap n.1 ↔ n.2 ∈ rest'.filterMap n.1)

/-- The statement leaves the rows of other tenants as they are, which hold a unique key once and
refer to rows that are there, and keeps to the footprint on the tenant's rows. -/
structure Statement.Spares (s : Statement Row) (fp : Footprint Row) (schema : Schema Row) (T : Id)
    (rest : List Row) : Prop where
  before : others T s.before = rest
  after : others T s.after = rest
  leads : fp.Leads schema (own T s.before) (own T s.after)
  changes : ∀ c ∈ s.changes, ∀ r, c.2 = some r → fp.rows r
  unique : ∀ key ∈ schema.uniqueKeys, (rest.filterMap key).Nodup
  resolved : ∀ fk ∈ schema.foreignKeys, ∀ v ∈ rest.filterMap fk.column,
    v ∈ s.before.filterMap fk.key

/-- It takes away the keys of the tenant's rows that it does not leave, unless other rows hold
them. -/
theorem Statement.Spares.gone_iff (hs : s.Spares fp schema T rest) (fk : ForeignKey Row)
    (v : String) :
    fk.gone s v = true ↔ v ∈ (own T s.before).filterMap fk.key ∧
      v ∉ (own T s.after).filterMap fk.key ∧ v ∉ rest.filterMap fk.key := by
  unfold ForeignKey.gone
  rw [Bool.and_eq_true, Bool.not_eq_true', List.contains_eq_mem, List.contains_eq_mem,
    decide_eq_true_eq, decide_eq_false_iff_not, mem_filterMap_own_others T s.before,
    mem_filterMap_own_others T s.after, hs.before, hs.after]
  tauto

/-- These keys may go. -/
theorem Statement.Spares.may_go (hs : s.Spares fp schema T rest) {fk : ForeignKey Row}
    (hfk : fk ∈ schema.foreignKeys) {v : String} (h : fk.gone s v = true) :
    fp.gone fk.key v := by
  rcases (hs.gone_iff fk v).mp h with ⟨hbefore, hafter, _⟩
  exact (hs.leads.keys hfk hbefore).resolve_left hafter

/-- The other rows refer to nothing that the statement took away. -/
theorem Statement.Spares.column_filter (hs : s.Spares fp schema T rest)
    (hclear : fp.ClearOf schema rest) {fk : ForeignKey Row} (hfk : fk ∈ schema.foreignKeys)
    {r : Row} (hr : r ∈ rest) : (fk.column r).filter (fk.gone s) = none := by
  rw [Option.filter_eq_none_iff]
  intro v hcolumn hgone
  exact hclear fk hfk v (hs.may_go hfk hgone) (List.mem_filterMap.mpr ⟨r, hr, hcolumn⟩)

/-- What they refer to is still there. -/
theorem Statement.Spares.resolved_after (hs : s.Spares fp schema T rest)
    (hclear : fp.ClearOf schema rest) {fk : ForeignKey Row} (hfk : fk ∈ schema.foreignKeys)
    {v : String} (hv : v ∈ rest.filterMap fk.column) : v ∈ s.after.filterMap fk.key := by
  by_contra hafter
  refine hclear fk hfk v (hs.may_go hfk ?_) hv
  unfold ForeignKey.gone
  simp [hs.resolved fk hfk v hv, hafter]

omit [TenantRow Row] in
theorem foldlM_keeps {κ : Type} {f : Row → κ → Option Row} {keys : List κ} {I : Row → Prop}
    (h : ∀ k ∈ keys, ∀ r r', I r → f r k = some r' → I r') {r r' : Row} (hr : I r)
    (hrun : keys.foldlM f r = some r') : I r' := by
  induction keys generalizing r with
  | nil =>
      cases hrun
      exact hr
  | cons k keys ih =>
      rw [List.foldlM_cons] at hrun
      rcases Option.bind_eq_some_iff.mp hrun with ⟨r₁, hr₁, hrun⟩
      exact ih (fun k' hk' => h k' (List.mem_cons_of_mem k hk'))
        (h k List.mem_cons_self r r₁ hr hr₁) hrun

omit [TenantRow Row] in
theorem foldlM_congr_mem {κ : Type} {f g : Row → κ → Option Row} {keys : List κ}
    (h : ∀ k ∈ keys, ∀ r, f r k = g r k) (r : Row) : keys.foldlM f r = keys.foldlM g r := by
  induction keys generalizing r with
  | nil => rfl
  | cons k keys ih =>
      rw [List.foldlM_cons, List.foldlM_cons, h k List.mem_cons_self]
      congr 1
      funext r'
      exact ih (fun k' hk' => h k' (List.mem_cons_of_mem k hk')) r'

theorem foldlM_allows {κ : Type} {f : Row → κ → Option Row} {keys : List κ}
    (h : ∀ k ∈ keys, ∀ r, fp.rows r → fp.Allows schema (some r, f r k)) {r : Row}
    (hr : fp.rows r) : fp.Allows schema (some r, keys.foldlM f r) := by
  induction keys generalizing r with
  | nil => exact .refl hr
  | cons k keys ih =>
      have hfirst := h k List.mem_cons_self r hr
      rw [List.foldlM_cons]
      cases hrun : f r k with
      | none =>
          rw [hrun] at hfirst
          exact hfirst
      | some r' =>
          rw [hrun] at hfirst
          exact hfirst.trans
            (ih (fun k' hk' => h k' (List.mem_cons_of_mem k hk')) (hfirst.rows r' rfl))

/-- The foreign keys leave the other rows as they are. -/
theorem Statement.Spares.follow_other (hs : s.Spares fp schema T rest)
    (hclear : fp.ClearOf schema rest) {r : Row} (hr : r ∈ rest) : schema.follow s r = some r :=
  foldlM_fixed fun _ hfk => ForeignKey.follow_of_filter (hs.column_filter hclear hfk hr)

theorem Statement.Spares.reaches_other (hs : s.Spares fp schema T rest)
    (hclear : fp.ClearOf schema rest) {r : Row} (hr : r ∈ rest) :
    schema.reaches s r = false := by
  unfold Schema.reaches
  rw [List.any_eq_false]
  intro fk hfk
  have hnone := hs.column_filter hclear hfk hr
  cases hcolumn : fk.column r with
  | none => simp
  | some v =>
      rw [hcolumn, Option.filter_eq_none_iff] at hnone
      simpa using hnone

/-- A foreign key keeps a row of the tenant in it. -/
theorem Statement.Spares.owned_follow_key (hs : s.Spares fp schema T rest) (fk : ForeignKey Row)
    {r r' : Row} (hr : owned T r = true) (hrun : fk.follow s r = some r') :
    owned T r' = true := by
  unfold ForeignKey.follow at hrun
  split at hrun
  · cases hrun
    exact hr
  · rename_i v hv
    have hgone : fk.gone s v = true := (Option.filter_eq_some_iff.mp hv).2
    have hwrite : ∀ new, owned T (fk.write new r) = true := by
      rcases fk.tenantId_write with hkeeps | hforeign
      · intro new
        unfold owned at hr ⊢
        rw [hkeeps]
        exact hr
      · -- a key of rows without a tenant is not gone
        rcases List.mem_filterMap.mp ((hs.gone_iff fk v).mp hgone).1 with ⟨r₀, hr₀, hkey⟩
        have howned : owned T r₀ = true := (List.mem_filter.mp hr₀).2
        unfold owned at howned
        rw [hforeign r₀ v hkey] at howned
        cases howned
    unfold ForeignKey.act at hrun
    split at hrun
    · cases hrun
      exact hwrite _
    · cases hrun
    · cases hrun
      exact hwrite _
    · cases hrun
      exact hr

/-- The foreign keys keep a row of the tenant in it. -/
theorem Statement.Spares.owned_follow (hs : s.Spares fp schema T rest) {r r' : Row}
    (hr : owned T r = true) (hrun : schema.follow s r = some r') : owned T r' = true :=
  foldlM_keeps (I := fun r => owned T r = true)
    (fun fk _ _ _ hr hrun => hs.owned_follow_key fk hr hrun) hr hrun

/-- A foreign key keeps a row of the footprint in it. -/
theorem Statement.Spares.allows_follow_key (hs : s.Spares fp schema T rest)
    (hclosed : fp.Closed schema) {fk : ForeignKey Row} (hfk : fk ∈ schema.foreignKeys) {r : Row}
    (hr : fp.rows r) : fp.Allows schema (some r, fk.follow s r) := by
  unfold ForeignKey.follow
  split
  · exact .refl hr
  · rename_i v hv
    rcases Option.filter_eq_some_iff.mp hv with ⟨hcolumn, hgone⟩
    refine hclosed fk hfk r v hr hcolumn (hs.may_go hfk hgone) _ fun w hw => ?_
    rcases Option.bind_eq_some_iff.mp hw with ⟨c, hc, hkey⟩
    rcases Option.bind_eq_some_iff.mp hkey with ⟨p, hp, hkey⟩
    exact ⟨p, hs.changes c (List.mem_of_find?_eq_some hc) p hp, hkey⟩

/-- The foreign keys keep a row of the footprint in it. -/
theorem Statement.Spares.allows_follow (hs : s.Spares fp schema T rest)
    (hclosed : fp.Closed schema) {r : Row} (hr : fp.rows r) :
    fp.Allows schema (some r, schema.follow s r) :=
  foldlM_allows (fun _ hfk _ hr => hs.allows_follow_key hclosed hfk hr) hr

end Others

/-! ## The cascade inside a tenant -/

section Cascade

variable {schema : Schema Row} {fp : Footprint Row} {T : Id} {rest rest' rows : List Row}
  {s s' : Statement Row}

theorem own_filterMap {f : Row → Option Row}
    (hown : ∀ r ∈ rows, owned T r = true → ∀ r', f r = some r' → owned T r' = true)
    (hother : ∀ r ∈ rows, owned T r = false → f r = some r) :
    own T (rows.filterMap f) = (own T rows).filterMap f := by
  induction rows with
  | nil => rfl
  | cons r rows ih =>
      rw [List.forall_mem_cons] at hown hother
      have ih' := ih hown.2 hother.2
      unfold own at ih' ⊢
      cases ho : owned T r with
      | false => simp [hother.1 ho, ho, ih']
      | true =>
          cases hf : f r with
          | none => simp [hf, ho, ih']
          | some r' => simp [hf, ho, hown.1 ho r' hf, ih']

theorem others_filterMap {f : Row → Option Row}
    (hown : ∀ r ∈ rows, owned T r = true → ∀ r', f r = some r' → owned T r' = true)
    (hother : ∀ r ∈ rows, owned T r = false → f r = some r) :
    others T (rows.filterMap f) = others T rows := by
  induction rows with
  | nil => rfl
  | cons r rows ih =>
      rw [List.forall_mem_cons] at hown hother
      have ih' := ih hown.2 hother.2
      unfold others at ih' ⊢
      cases ho : owned T r with
      | false => simp [hother.1 ho, ho, ih']
      | true =>
          cases hf : f r with
          | none => simp [hf, ho, ih']
          | some r' => simp [hf, ho, hown.1 ho r' hf, ih']

theorem length_own_add_others (T : Id) (rows : List Row) :
    (own T rows).length + (others T rows).length = rows.length := by
  rw [← List.length_append]
  exact (own_append_others_perm T rows).length_eq

theorem Statement.Spares.mem_rest (hs : s.Spares fp schema T rest) {r : Row} (hr : r ∈ s.after)
    (hother : owned T r = false) : r ∈ rest := by
  rw [← hs.after]
  exact List.mem_filter.mpr ⟨hr, by simp [hother]⟩

/-- What the foreign keys do to the tenant's rows they do among them. -/
theorem Statement.Spares.own_next (hs : s.Spares fp schema T rest)
    (hclear : fp.ClearOf schema rest) :
    own T (schema.next s).after = (own T s.after).filterMap (schema.follow s) :=
  own_filterMap (fun _ _ hr _ hrun => hs.owned_follow hr hrun)
    fun _ hr hother => hs.follow_other hclear (hs.mem_rest hr hother)

theorem Statement.Spares.owned_of_reaches (hs : s.Spares fp schema T rest)
    (hclear : fp.ClearOf schema rest) {r : Row} (hr : r ∈ s.after)
    (hreaches : schema.reaches s r = true) : owned T r = true := by
  cases ho : owned T r with
  | true => rfl
  | false =>
      rw [hs.reaches_other hclear (hs.mem_rest hr ho)] at hreaches
      cases hreaches

/-- The foreign keys spare the others again. -/
theorem Statement.Spares.next (hs : s.Spares fp schema T rest) (hclear : fp.ClearOf schema rest)
    (hclosed : fp.Closed schema) : (schema.next s).Spares fp schema T rest where
  before := hs.after
  after := (others_filterMap (fun _ _ hr _ hrun => hs.owned_follow hr hrun)
    fun _ hr hother => hs.follow_other hclear (hs.mem_rest hr hother)).trans hs.after
  leads := by
    rw [hs.own_next hclear]
    exact Footprint.leads_filterMap hs.leads.left fun r hr =>
      hs.allows_follow hclosed (hs.leads.left r hr)
  changes := by
    intro c hc r' hr'
    rcases List.mem_map.mp hc with ⟨r, hr, rfl⟩
    rcases List.mem_filter.mp hr with ⟨hr, hreaches⟩
    have hown : r ∈ own T s.after :=
      List.mem_filter.mpr ⟨hr, hs.owned_of_reaches hclear hr hreaches⟩
    exact (hs.allows_follow hclosed (hs.leads.left r hown)).rows r' hr'
  unique := hs.unique
  resolved _ hfk _ hv := hs.resolved_after hclear hfk hv

/-- A change inside the tenant. -/
def ChangesOwn (T : Id) (c : Change Row) : Prop :=
  (∀ r, c.1 = some r → owned T r = true) ∧ ∀ r, c.2 = some r → owned T r = true

/-- The foreign keys change rows of the tenant only. -/
theorem Statement.Spares.next_changes (hs : s.Spares fp schema T rest)
    (hclear : fp.ClearOf schema rest) : ∀ c ∈ (schema.next s).changes, ChangesOwn T c := by
  intro c hc
  rcases List.mem_map.mp hc with ⟨r, hr, rfl⟩
  rcases List.mem_filter.mp hr with ⟨hr, hreaches⟩
  have hown := hs.owned_of_reaches hclear hr hreaches
  constructor
  · rintro _ ⟨⟩
    exact hown
  · intro r' hr'
    exact hs.owned_follow hown hr'

/-- All that the foreign keys do, as one statement. -/
def Schema.followed (schema : Schema Row) (s : Statement Row) : Statement Row :=
  ⟨s.after, (schema.cascade s).1, (schema.cascade s).2⟩

/-- All that follows a statement inside the tenant stays inside it. -/
theorem Statement.Spares.cascade {s : Statement Row} (hs : s.Spares fp schema T rest)
    (hclear : fp.ClearOf schema rest) (hclosed : fp.Closed schema) :
    (schema.followed s).Spares fp schema T rest ∧ ∀ c ∈ (schema.cascade s).1, ChangesOwn T c := by
  have hnext := hs.next hclear hclosed
  have hchanges := hs.next_changes hclear
  unfold Schema.followed
  rw [Schema.cascade_eq]
  split
  · rcases hnext.cascade hclear hclosed with ⟨hlater, hown⟩
    constructor
    · refine ⟨hs.after, hlater.after, hnext.leads.trans hlater.leads, fun c hc => ?_, hs.unique,
        hnext.resolved⟩
      exact (List.mem_append.mp hc).elim (hnext.changes c) (hlater.changes c)
    · intro c hc
      exact (List.mem_append.mp hc).elim (hchanges c) (hown c)
  · exact ⟨hnext, hchanges⟩
termination_by s.after.length

/-- Two statements that differ in the rows of other tenants only. -/
structure Statement.Alike (s s' : Statement Row) (fp : Footprint Row) (schema : Schema Row) (T : Id)
    (rest rest' : List Row) : Prop where
  spares : s.Spares fp schema T rest
  spares' : s'.Spares fp schema T rest'
  before : own T s.before = own T s'.before
  after : own T s.after = own T s'.after
  changes : s.changes = s'.changes

/-- The other rows hold the same of the keys that the tenant's rows have. -/
theorem Outside.key_iff (hout : Outside schema fp rest rest') {key : Row → Option String}
    (hkey : key ∈ schema.uniqueKeys) (hrows : ∀ r ∈ rows, fp.rows r) {v : String}
    (hv : v ∈ rows.filterMap key) : v ∈ rest.filterMap key ↔ v ∈ rest'.filterMap key := by
  rcases List.mem_filterMap.mp hv with ⟨r, hr, hkey'⟩
  exact hout.names r (hrows r hr) _ (Schema.mem_names_of_key hkey hkey')

/-- They take the same keys away. -/
theorem Statement.Alike.gone_eq (h : s.Alike s' fp schema T rest rest')
    (hout : Outside schema fp rest rest') {fk : ForeignKey Row} (hfk : fk ∈ schema.foreignKeys) :
    fk.gone s = fk.gone s' := by
  funext v
  rw [Bool.eq_iff_iff, h.spares.gone_iff, h.spares'.gone_iff, ← h.before, ← h.after]
  refine and_congr_right fun hv => and_congr_right fun _ => not_congr ?_
  exact hout.key_iff (schema.referenced fk hfk) h.spares.leads.found hv

theorem Statement.Alike.follow_eq (h : s.Alike s' fp schema T rest rest')
    (hout : Outside schema fp rest rest') : schema.follow s = schema.follow s' := by
  funext r
  refine foldlM_congr_mem (fun fk hfk r => ?_) r
  unfold ForeignKey.follow
  rw [h.gone_eq hout hfk, h.changes]

theorem Statement.Alike.reaches_eq (h : s.Alike s' fp schema T rest rest')
    (hout : Outside schema fp rest rest') : schema.reaches s = schema.reaches s' := by
  funext r
  unfold Schema.reaches
  rw [Bool.eq_iff_iff, List.any_eq_true, List.any_eq_true]
  refine exists_congr fun fk => and_congr_right fun hfk => ?_
  rw [h.gone_eq hout hfk]

/-- The foreign keys do the same to both. -/
theorem Statement.Alike.next (h : s.Alike s' fp schema T rest rest')
    (hout : Outside schema fp rest rest') (hclosed : fp.Closed schema) :
    (schema.next s).Alike (schema.next s') fp schema T rest rest' where
  spares := h.spares.next hout.clear hclosed
  spares' := h.spares'.next hout.clear' hclosed
  before := h.after
  after := by
    rw [h.spares.own_next hout.clear, h.spares'.own_next hout.clear', h.after, h.follow_eq hout]
  changes := by
    have hown : own T s.after = own T s'.after := h.after
    unfold Schema.next
    simp only
    rw [← filter_own (T := T) fun r hr hreaches =>
        h.spares.owned_of_reaches hout.clear hr hreaches,
      ← filter_own (T := T) fun r hr hreaches =>
        h.spares'.owned_of_reaches hout.clear' hr hreaches,
      hown, h.follow_eq hout, h.reaches_eq hout]

/-- All that follows is the same: the rows of other tenants do not show in it. -/
theorem Statement.Alike.cascade {s s' : Statement Row} (h : s.Alike s' fp schema T rest rest')
    (hout : Outside schema fp rest rest') (hclosed : fp.Closed schema) :
    (schema.followed s).Alike (schema.followed s') fp schema T rest rest' := by
  have hnext := h.next hout hclosed
  have hshorter : (schema.next s).after.length < s.after.length ↔
      (schema.next s').after.length < s'.after.length := by
    rw [← length_own_add_others T s.after, ← length_own_add_others T s'.after,
      ← length_own_add_others T (schema.next s).after,
      ← length_own_add_others T (schema.next s').after, h.after, hnext.after, h.spares.after,
      h.spares'.after, hnext.spares.after, hnext.spares'.after]
    omega
  have hspares := (h.spares.cascade hout.clear hclosed).1
  have hspares' := (h.spares'.cascade hout.clear' hclosed).1
  unfold Schema.followed at hspares hspares' ⊢
  rw [Schema.cascade_eq] at hspares hspares' ⊢
  rw [schema.cascade_eq s']
  by_cases hlt : (schema.next s).after.length < s.after.length
  · have hlater := hnext.cascade hout hclosed
    rw [if_pos hlt] at hspares ⊢
    rw [if_pos (hshorter.mp hlt)] at hspares' ⊢
    exact ⟨hspares, hspares', h.after, hlater.after, congrArg₂ _ hnext.changes hlater.changes⟩
  · have hlt' : ¬(schema.next s').after.length < s'.after.length :=
      fun hlt' => hlt (hshorter.mpr hlt')
    rw [if_neg hlt] at hspares ⊢
    rw [if_neg hlt'] at hspares' ⊢
    exact ⟨hspares, hspares', h.after, hnext.after, hnext.changes⟩
termination_by s.after.length

/-- A unique key of the rows that a statement leaves: the tenant's rows hold it once, and no key
of the others. -/
theorem Statement.Spares.nodup_iff (hs : s.Spares fp schema T rest) {key : Row → Option String}
    (hkey : key ∈ schema.uniqueKeys) :
    (s.after.filterMap key).Nodup ↔ ((own T s.after).filterMap key).Nodup ∧
      ∀ v ∈ (own T s.after).filterMap key, v ∉ rest.filterMap key := by
  rw [← ((own_append_others_perm T s.after).filterMap key).nodup_iff, List.filterMap_append,
    hs.after, List.nodup_append']
  exact and_congr_right fun _ => and_iff_right (hs.unique key hkey)

/-- A foreign key of the rows that a statement leaves: the references of the tenant's rows are
resolved. -/
theorem Statement.Spares.resolves_iff (hs : s.Spares fp schema T rest)
    (hclear : fp.ClearOf schema rest) {fk : ForeignKey Row} (hfk : fk ∈ schema.foreignKeys) :
    (∀ v ∈ s.after.filterMap fk.column, v ∈ s.after.filterMap fk.key) ↔
      ∀ v ∈ (own T s.after).filterMap fk.column,
        v ∈ (own T s.after).filterMap fk.key ∨ v ∈ rest.filterMap fk.key := by
  constructor
  · intro hall v hv
    have hkey := hall v ((mem_filterMap_own_others T _ _ v).mpr (Or.inl hv))
    rwa [mem_filterMap_own_others T, hs.after] at hkey
  · intro hall v hv
    rcases (mem_filterMap_own_others T s.after _ v).mp hv with hv | hv
    · rw [mem_filterMap_own_others T, hs.after]
      exact hall v hv
    · rw [hs.after] at hv
      exact hs.resolved_after hclear hfk hv

/-- What they leave keeps to the schema alike. -/
theorem Statement.Alike.accepts_eq (h : s.Alike s' fp schema T rest rest')
    (hout : Outside schema fp rest rest') : schema.accepts s.after = schema.accepts s'.after := by
  have hkey : ∀ key ∈ schema.uniqueKeys, ∀ v ∈ (own T s'.after).filterMap key,
      (v ∈ rest.filterMap key ↔ v ∈ rest'.filterMap key) :=
    fun key hkey v hv => hout.key_iff hkey h.spares'.leads.left hv
  have hcolumn : ∀ fk ∈ schema.foreignKeys, ∀ v ∈ (own T s'.after).filterMap fk.column,
      (v ∈ rest.filterMap fk.key ↔ v ∈ rest'.filterMap fk.key) := by
    intro fk hfk v hv
    rcases List.mem_filterMap.mp hv with ⟨r, hr, hcolumn⟩
    exact hout.names r (h.spares'.leads.left r hr) _ (Schema.mem_names_of_column hfk hcolumn)
  unfold Schema.accepts
  congr 1
  · rw [Bool.eq_iff_iff, List.all_eq_true, List.all_eq_true]
    simp only [decide_eq_true_eq]
    refine forall₂_congr fun key hk => ?_
    rw [h.spares.nodup_iff hk, h.spares'.nodup_iff hk, h.after]
    refine and_congr_right fun _ => forall₂_congr fun v hv => ?_
    rw [hkey key hk v hv]
  · rw [Bool.eq_iff_iff]
    unfold Schema.resolves
    simp only [List.all_eq_true, List.contains_eq_mem, decide_eq_true_eq]
    refine forall₂_congr fun fk hfk => ?_
    rw [h.spares.resolves_iff hout.clear hfk, h.spares'.resolves_iff hout.clear' hfk, h.after]
    refine forall₂_congr fun v hv => ?_
    rw [hcolumn fk hfk v hv]

end Cascade

/-! ## Databases apart -/

section Apart

variable {schema : Schema Row} {fp : Footprint Row} {T : Id} {db db' : Tables schema}

/-- The other rows of two databases are apart from a footprint on the tenant's rows: they refer to
no key that may go, and hold the same of the keys that new rows have or refer to. -/
structure Apart (T : Id) (fp : Footprint Row) (db db' : Tables schema) : Prop where
  stored : ∀ r ∈ own T db.rows, fp.rows r
  closed : fp.Closed schema
  clear : fp.ClearOf schema (others T db.rows)
  clear' : fp.ClearOf schema (others T db'.rows)
  names : ∀ r, fp.rows r → r ∉ own T db.rows → ∀ n ∈ schema.names r,
    (n.2 ∈ (others T db.rows).filterMap n.1 ↔ n.2 ∈ (others T db'.rows).filterMap n.1)

/-- Other rows hold no unique key of the tenant's. -/
theorem Tables.key_not_mem (db : Tables schema) {key : Row → Option String}
    (hkey : key ∈ schema.uniqueKeys) {v : String} (hv : v ∈ (own T db.rows).filterMap key) :
    v ∉ (others T db.rows).filterMap key := by
  have hnodup := Schema.unique_of_accepts db.accepted hkey
  rw [← ((own_append_others_perm T db.rows).filterMap key).nodup_iff,
    List.filterMap_append] at hnodup
  exact fun hother => (List.nodup_append'.mp hnodup).2.2 hv hother

/-- What the stored rows of the tenant refer to is resolved among them or among the others. -/
theorem Tables.column_mem (db : Tables schema) {fk : ForeignKey Row}
    (hfk : fk ∈ schema.foreignKeys) {v : String} (hv : v ∈ (own T db.rows).filterMap fk.column) :
    v ∈ (own T db.rows).filterMap fk.key ∨ v ∈ (others T db.rows).filterMap fk.key := by
  rw [← mem_filterMap_own_others]
  exact Schema.resolved_of_accepts db.accepted hfk
    ((mem_filterMap_own_others T db.rows _ v).mpr (Or.inl hv))

/-- When they agree on the tenant's rows, the other rows hold the same of the keys that these have
or refer to as well. -/
theorem Apart.outside (h : Apart T fp db db') (hown : own T db.rows = own T db'.rows) :
    Outside schema fp (others T db.rows) (others T db'.rows) := by
  refine ⟨h.clear, h.clear', fun r hr n hn => ?_⟩
  by_cases hstored : r ∈ own T db.rows
  · have hkey : ∀ key ∈ schema.uniqueKeys, ∀ v ∈ (own T db.rows).filterMap key,
        (v ∈ (others T db.rows).filterMap key ↔ v ∈ (others T db'.rows).filterMap key) :=
      fun key hkey v hv =>
        iff_of_false (db.key_not_mem hkey hv) (db'.key_not_mem hkey (hown ▸ hv))
    rcases List.mem_append.mp hn with hn | hn
    · rcases List.mem_filterMap.mp hn with ⟨key, hmem, hn⟩
      rcases Option.map_eq_some_iff.mp hn with ⟨v, hv, rfl⟩
      exact hkey key hmem v (List.mem_filterMap.mpr ⟨r, hstored, hv⟩)
    · rcases List.mem_filterMap.mp hn with ⟨fk, hfk, hn⟩
      rcases Option.map_eq_some_iff.mp hn with ⟨v, hv, rfl⟩
      have hcolumn : v ∈ (own T db.rows).filterMap fk.column :=
        List.mem_filterMap.mpr ⟨r, hstored, hv⟩
      by_cases hinside : v ∈ (own T db.rows).filterMap fk.key
      · exact hkey fk.key (schema.referenced fk hfk) v hinside
      · exact iff_of_true ((db.column_mem hfk hcolumn).resolve_left hinside)
          ((db'.column_mem hfk (hown ▸ hcolumn)).resolve_left (hown ▸ hinside))
  · exact h.names r hr hstored n hn

/-- Where nothing is written, databases are apart. -/
theorem Apart.of_stored (T : Id) (db db' : Tables schema) :
    Apart T ⟨fun r => r ∈ own T db.rows, fun _ _ => False⟩ db db' where
  stored _ hr := hr
  closed _ _ _ _ _ _ hgone := hgone.elim
  clear _ _ _ hgone := hgone.elim
  clear' _ _ _ hgone := hgone.elim
  names _ hr hstored := absurd hr hstored

end Apart

/-! ## Operations inside a tenant -/

section Contained

variable {schema : Schema Row} {fp : Footprint Row} {T : Id} {m : Delegate Row} {uuid : ℕ → Id}
  {op : Operation} {args : Args Row} {db db' : Tables schema}

/-- Two outcomes that differ in the rows of other tenants only, which stay as they were; the
tenant's rows stay in the footprint. -/
structure Outcome.Alike (out out' : Outcome Row) (fp : Footprint Row) (T : Id)
    (rows rows' : List Row) : Prop where
  result : out.result = out'.result
  own : own T out.rows = own T out'.rows
  stored : ∀ r ∈ Database.own T out.rows, fp.rows r
  frame : others T out.rows = others T rows
  frame' : others T out'.rows = others T rows'

section Settled

variable {rows rows' : List Row} {t t' t₀ : Root Row}

/-- The statement of a contained operation spares the rows of other tenants. -/
theorem Root.statement_spares (ht : t.Within T args) (h : t.Mirrors T rows t₀)
    (hcovered : t₀.Covered fp schema (own T rows)) (haccepted : schema.accepts rows = true) :
    (t.statement rows).Spares fp schema T (others T rows) where
  before := rfl
  after := (h.after ht).2
  leads := by
    have hleads := hcovered.after
    rwa [(h.after ht).1] at hleads
  changes := by
    intro c hc
    rcases List.mem_append.mp hc with hc | hc
    · rw [← h.changes] at hc
      exact hcovered.changes c hc
    · rw [← h.nestedChanges ht] at hc
      exact hcovered.nestedChanges c hc
  unique _ hkey :=
    (Schema.unique_of_accepts haccepted hkey).sublist (List.filter_sublist.filterMap _)
  resolved _ hfk v hv :=
    Schema.resolved_of_accepts haccepted hfk ((List.filter_sublist.filterMap _).subset hv)

/-- The statements of a contained operation differ in the rows of other tenants only. -/
theorem Root.statement_alike (ht : t.Within T args) (h : t.Mirrors T rows t₀)
    (ht' : t'.Within T args) (h' : t'.Mirrors T rows' t₀)
    (hspares : (t.statement rows).Spares fp schema T (others T rows))
    (hspares' : (t'.statement rows').Spares fp schema T (others T rows'))
    (hown : own T rows = own T rows') :
    (t.statement rows).Alike (t'.statement rows') fp schema T (others T rows) (others T rows') where
  spares := hspares
  spares' := hspares'
  before := hown
  after := (h.after ht).1.symm.trans (h'.after ht').1
  changes := by
    unfold Root.statement
    simp only
    rw [← h.changes, ← h'.changes, ← h.nestedChanges ht, ← h'.nestedChanges ht']

/-- The foreign keys keep the outcome of a contained operation inside the tenant. -/
theorem Root.Within.settled (ht : t.Within T args)
    (hlater : ∀ c ∈ (schema.cascade (t.statement rows)).1, ChangesOwn T c) :
    (t.settled schema op args rows).Within T := by
  have hwithin := ht.outcome
  constructor
  · intro r hr
    rcases List.mem_append.mp hr with hr | hr
    · exact ht.seen r hr
    · rcases List.mem_flatMap.mp hr with ⟨p, hp, hrel⟩
      exact ht.reads p hp r (List.mem_filter.mp hrel).2
  · intro c hc
    rcases List.mem_append.mp hc with hc | hc
    · exact hwithin.before c hc
    · exact (hlater c hc).1
  · intro c hc
    rcases List.mem_append.mp hc with hc | hc
    · exact hwithin.after c hc
    · exact (hlater c hc).2

/-- The foreign keys keep the outcomes of a contained operation alike. -/
theorem Root.settled_alike (ht : t.Within T args) (h : t.Mirrors T rows t₀)
    (h' : t'.Mirrors T rows' t₀) (hown : own T rows = own T rows')
    (hfollowed : (schema.followed (t.statement rows)).Alike (schema.followed (t'.statement rows'))
      fp schema T (others T rows) (others T rows')) :
    (t.settled schema op args rows).Alike (t'.settled schema op args rows') fp T rows rows' := by
  refine ⟨?_, hfollowed.after, hfollowed.spares.leads.left, hfollowed.spares.after,
    hfollowed.spares'.after⟩
  have hreturned : t.returned = t'.returned := h.returned.symm.trans h'.returned
  have hshown : own T (op.shown rows (schema.cascade (t.statement rows)).2) =
      own T (op.shown rows' (schema.cascade (t'.statement rows')).2) := by
    unfold Operation.shown
    split
    · exact hown
    · exact hfollowed.after
  have hrelated : ∀ r ∈ t.returned,
      args.related (op.shown rows (schema.cascade (t.statement rows)).2) r =
        args.related (op.shown rows' (schema.cascade (t'.statement rows')).2) r := by
    intro r hr
    exact (filter_own fun c _ => ht.reads r hr c).symm.trans
      ((congrArg (List.filter _) hshown).trans (filter_own fun c _ => ht.reads r hr c))
  unfold Root.settled
  simp only
  rw [← h.counted, ← h'.counted, ← hreturned]
  cases t₀.counted with
  | some n => rfl
  | none =>
      simp only
      congr 1
      apply List.map_congr_left
      intro r hr
      rw [hrelated r hr]

end Settled

/-- A contained operation fails alike on two databases that agree on the tenant's rows, or its
outcomes stay inside the tenant and are alike. -/
theorem execute_contained (hop : op ∉ unsupportedOperations)
    (hc : Contained T args db.rows (root m uuid op args db.rows)
      (root m uuid op args (own T db.rows)))
    (hc' : Contained T args db'.rows (root m uuid op args db'.rows)
      (root m uuid op args (own T db'.rows)))
    (hown : own T db.rows = own T db'.rows) (hstored : ∀ r ∈ own T db.rows, fp.rows r)
    (hcovers : fp.Covers schema m uuid args op) (hclosed : fp.Closed schema)
    (hout : Outside schema fp (others T db.rows) (others T db'.rows)) :
    (∃ e, execute m uuid op args db = .error e ∧ execute m uuid op args db' = .error e) ∨
      ∃ out out', execute m uuid op args db = .ok out ∧ execute m uuid op args db' = .ok out' ∧
        out.Within T ∧ out.Alike out' fp T db.rows db'.rows := by
  unfold execute
  cases args.unknownColumn m with
  | true => exact Or.inl ⟨_, rfl, rfl⟩
  | false =>
      have hcovered : ∀ t₀, root m uuid op args (own T db.rows) = .ok t₀ →
          t₀.Covered fp schema (own T db.rows) :=
        fun t₀ ht₀ => root_covered hop hcovers hstored ht₀
      rw [← hown] at hc'
      generalize root m uuid op args (own T db.rows) = y at hc hc' hcovered
      generalize root m uuid op args db.rows = x at hc
      generalize root m uuid op args db'.rows = x' at hc'
      cases hc with
      | refused e =>
          cases hc'
          exact Or.inl ⟨e, rfl, rfl⟩
      | done within mirrors =>
          cases hc' with
          | done within' mirrors' =>
              rename_i t t₀ t'
              have hspares := Root.statement_spares within mirrors (hcovered t₀ rfl) db.accepted
              have hspares' := Root.statement_spares within' mirrors' (hown ▸ hcovered t₀ rfl)
                db'.accepted
              have hfollowed := (Root.statement_alike within mirrors within' mirrors' hspares
                hspares' hown).cascade hout hclosed
              have halike : (t.settled schema op args db.rows).Alike
                  (t'.settled schema op args db'.rows) fp T db.rows db'.rows :=
                Root.settled_alike within mirrors mirrors' hown hfollowed
              have haccepts : schema.accepts (t.settled schema op args db.rows).rows =
                  schema.accepts (t'.settled schema op args db'.rows).rows :=
                hfollowed.accepts_eq hout
              simp only [Bool.false_eq_true, if_false]
              rw [← haccepts]
              split
              · exact Or.inr ⟨_, _, rfl, rfl,
                  within.settled (hspares.cascade hout.clear hclosed).2, halike⟩
              · exact Or.inl ⟨_, rfl, rfl⟩

end Contained

end Database
end Eleva
