import ScriptAssembly.Proofs.InPlace
/-
Side indexes of a linkage agree with its data.

A linkage keeps, beside its regular imports, the positions of each local name,
and beside the groups of its local exports, the order of their names. A push
of an import adds the last position to the name that it binds, so the positions
of a name remain those of its imports, in increasing order
(`ImportTable.Indexes`), and none of them leads out of bounds (`run_importsOf`).
The groups hold what a history has for the module's own exports (`Reads`), and
these have local names that no regular import binds: an import takes the group
of its name out of the table and out of the order, and no later export of
that name comes to the table again (`Reads.ne_of_mem_groups`).
-/
namespace ScriptAssembly.Linkage

/-! ## Positions of imports -/

namespace ImportTable

variable {t : ImportTable}

/-- A table whose positions are, in their order, those of the imports of each name. -/
structure Indexes (t : ImportTable) : Prop where
  increasing : ∀ name, (t.positionsOf name).toList.Pairwise (· < ·)
  mem_iff : ∀ name position, position ∈ (t.positionsOf name).toList ↔
    ∃ i, t.toList[position]? = some i ∧ i.localName = name

theorem indexes_empty : ImportTable.empty.Indexes := by
  constructor <;> simp [empty, positionsOf, toList]

theorem Indexes.lt_size (h : t.Indexes) {name : String} {position : Nat}
    (hmem : position ∈ (t.positionsOf name).toList) : position < t.size := by
  obtain ⟨i, hi, -⟩ := (h.mem_iff name position).mp hmem
  exact (List.getElem?_eq_some_iff.mp hi).1

theorem toList_positionsOf_push (t : ImportTable) (i : Import) (name : String) :
    ((t.push i).positionsOf name).toList =
      (t.positionsOf name).toList ++ if i.localName = name then [t.size] else [] := by
  rw [positionsOf_push]
  split <;> simp

theorem Indexes.push (h : t.Indexes) (i : Import) : (t.push i).Indexes where
  increasing name := by
    rw [toList_positionsOf_push, List.pairwise_append]
    refine ⟨h.increasing name, by split <;> simp, fun position hmem last hlast => ?_⟩
    split at hlast
    · rw [List.mem_singleton.mp hlast]
      exact h.lt_size hmem
    · cases hlast
  mem_iff name position := by
    have hlength : t.toList.length = t.size := rfl
    rw [toList_positionsOf_push, List.mem_append, h.mem_iff, toList_push]
    simp only [getElem?_concat_iff, hlength, or_and_right, exists_or]
    refine or_congr Iff.rfl ?_
    by_cases hn : i.localName = name <;> simp [hn]

end ImportTable

theorem indexes_run (rs : List Registration) : (Linkage.empty.run rs).regularImports.Indexes := by
  refine run_invariant (I := fun l => l.regularImports.Indexes) (fun {l r} _ h => ?_) rs ImportTable.indexes_empty
  rw [put_regularImports]
  cases r.regularImport? with
  | none => exact h
  | some i => exact h.push i

/-! ## Access by position -/

namespace InPlace

variable {l : Linkage}

theorem run_importAt {position : Nat} (h : position < l.regularImports.entries.size) :
    (importAt position).run l = .ok l.regularImports.entries[position] l := by
  unfold importAt
  rw [run_get_bind, Array.getElem?_eq_getElem h]
  rfl

/-- Imports are found one after another, as none of the positions leads out of bounds. -/
theorem run_importsAt {positions : List Nat} (h : ∀ position ∈ positions, position < l.regularImports.entries.size) :
    (positions.mapM importAt).run l = .ok (positions.filterMap (l.regularImports.entries[·]?)) l := by
  induction positions with
  | nil => rfl
  | cons position positions ih =>
    obtain ⟨hposition, hrest⟩ := List.forall_mem_cons.mp h
    rw [List.mapM_cons, EStateM.run_bind, run_importAt hposition]
    simp only [EStateM.run_bind, ih hrest, List.filterMap_cons, Array.getElem?_eq_getElem hposition]
    rfl

theorem run_importsOf (hl : l.Indexed) (localName : String) :
    (importsOf localName).run l = .ok (l.regularImports.importsOf localName) l := by
  unfold importsOf
  rw [run_get_bind]
  exact run_importsAt (hl.positions localName)

end InPlace

/-! ## Groups of local exports -/

namespace LocalExportTable.Holds

variable {t : LocalExportTable} {es : List LocalExport}

theorem group_ne_nil (h : t.Holds es) {name : String} {g : Array LocalExport} (hg : t.groups[name]? = some g) :
    g.toList ≠ [] := by
  have hmem : name ∈ t.groups := by
    rw [Std.ExtTreeMap.mem_iff_isSome_getElem?, hg]
    rfl
  obtain ⟨e, he, rfl⟩ := List.mem_map.mp ((h.index name).mp hmem)
  rw [h.toList_of_getElem? hg]
  exact List.ne_nil_of_mem (List.mem_filter.mpr ⟨he, by simp⟩)

theorem localName_of_mem_group (h : t.Holds es) {name : String} {g : Array LocalExport} (hg : t.groups[name]? = some g)
    {e : LocalExport} (he : e ∈ g.toList) : e.localName = name := by
  rw [h.toList_of_getElem? hg] at he
  simpa using (List.mem_filter.mp he).2

/-- Whatever order the groups are kept in, they hold each export once. -/
theorem stored_perm (h : t.Holds es) : t.stored.Perm es := by
  have hgroups : t.stored = (t.groups.toList.map Prod.fst).flatMap fun name => es.filter (·.localName == name) := by
    rw [LocalExportTable.stored, List.flatMap_map]
    refine List.flatMap_congr fun x hx => ?_
    exact h.toList_of_getElem? (Std.ExtTreeMap.mem_toList_iff_getElem?_eq_some.mp hx)
  rw [hgroups, Std.ExtTreeMap.map_fst_toList_eq_keys]
  refine flatMap_filter_perm LocalExport.localName Std.ExtTreeMap.nodup_keys fun e he => ?_
  exact Std.ExtTreeMap.mem_keys.mpr ((h.index _).mpr (List.mem_map_of_mem he))

theorem toList_perm_stored (h : t.Holds es) : t.toList.Perm t.stored := by
  rw [h.toList]
  exact (grouped_perm es).trans h.stored_perm.symm

end LocalExportTable.Holds

/-! ## Runs -/

/-- A linkage whose side indexes agree with its data. -/
structure IndexesAgree (l : Linkage) : Prop where
  increasing : ∀ name, (l.regularImports.positionsOf name).toList.Pairwise (· < ·)
  /-- The positions of a name are those of the imports that bind it. -/
  positions : ∀ name position, position ∈ (l.regularImports.positionsOf name).toList ↔
    ∃ i, l.regularImports.toList[position]? = some i ∧ i.localName = name
  /-- The imports of a name are found at its positions, none of which leads out of bounds. -/
  importsOf : ∀ name, (InPlace.importsOf name).run l = .ok (l.regularImports.toList.filter (·.localName == name)) l
  listedOnce : l.localExports.order.toList.Nodup
  listed : ∀ name, name ∈ l.localExports.order.toList ↔ name ∈ l.localExports.groups
  groups : ∀ name (g : Array LocalExport), l.localExports.groups[name]? = some g →
    g.toList ≠ [] ∧ ∀ e ∈ g.toList, e.localName = name
  /-- Group by group, each export that is stored is listed once. -/
  enumerated : l.localExports.toList.Perm l.localExports.stored ∧ l.localExports.toList.Nodup
  /-- A name that a regular import binds has no group. -/
  own : ∀ name ∈ l.localExports.groups, ∀ i ∈ l.regularImports.toList, i.localName ≠ name

/-- The module's own exports have local names that are not imported. -/
theorem Reads.ne_of_mem_groups {l : Linkage} {h : History} {steps : Nat} (hl : l.Reads h steps) {name : String}
    (hname : name ∈ l.localExports.groups) {i : Import} (hi : i ∈ l.regularImports.toList) : i.localName ≠ name := by
  obtain ⟨e, he, rfl⟩ := List.mem_map.mp ((hl.localExports.index name).mp hname)
  have hnone : h.firstImport? e.localName = none := by simpa using (List.mem_filter.mp he).2
  rw [hl.regularImports.toList] at hi
  obtain ⟨x, hx, rfl⟩ := List.mem_map.mp hi
  simpa using List.find?_eq_none.mp hnone x hx

/-- No export is listed twice, as no export name is used twice. -/
theorem nodup_localExports_run (rs : List Registration) : (Linkage.empty.run rs).localExports.toList.Nodup := by
  have hnames : ((Linkage.empty.run rs).exports.filterMap Export.exportName?).Nodup := by
    rw [(Reads.empty.run rs).exportNames_perm.nodup_iff]
    exact Reads.empty.nodup_exportNames .nil rs
  rw [exportNames_exports] at hnames
  exact (List.nodup_append.mp hnames).1.of_map

theorem Reads.indexesAgree {l : Linkage} {h : History} {steps : Nat} (hl : l.Reads h steps)
    (hindexes : l.regularImports.Indexes) (hdistinct : l.localExports.toList.Nodup) : l.IndexesAgree where
  increasing := hindexes.increasing
  positions := hindexes.mem_iff
  importsOf name := by
    rw [InPlace.run_importsOf hl.indexed, hl.regularImports.importsOf, hl.regularImports.toList]
  listedOnce := by
    rw [hl.localExports.order]
    exact eraseDups_nodup _
  listed name := by rw [hl.localExports.order, hl.localExports.index, List.mem_eraseDups]
  groups _ _ hg := ⟨hl.localExports.group_ne_nil hg, fun _ he => hl.localExports.localName_of_mem_group hg he⟩
  enumerated := ⟨hl.localExports.toList_perm_stored, hdistinct⟩
  own _ hname _ hi := hl.ne_of_mem_groups hname hi

/-- **The side indexes of a linkage agree with its data** after every run of calls. -/
theorem indexesAgree_afterAll (calls : List Call) : (Call.afterAll .empty calls).IndexesAgree := by
  rw [Call.afterAll_eq_run]
  exact (Reads.empty.run _).indexesAgree (indexes_run _) (nodup_localExports_run _)

/-- The group of `x` is taken out by the first import of that name, and does not come back. -/
example :
    let l := Call.afterAll .empty [.request "m", .addLocalExport ⟨"a", "x"⟩, .addImport ⟨0, "p", "x"⟩,
      .addImport ⟨0, "q", "y"⟩, .addImport ⟨0, "r", "x"⟩, .addLocalExport ⟨"b", "x"⟩, .addLocalExport ⟨"c", "z"⟩]
    l.regularImports.positionsOf "x" = #[0, 2] ∧ l.localExports.order = #["z"] := by decide +kernel

end ScriptAssembly.Linkage
