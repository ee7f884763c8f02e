import ScriptAssembly.Linkage.Tables
import ScriptAssembly.Proofs.Lists
/-
What the tables of a linkage hold.

Each table keeps an index beside its entries. `Holds` says of a table that it
is the given list of entries, index and all: how it is to be read, and how it
changes with one more entry, then follow from the list alone.
-/
namespace ScriptAssembly

namespace Linkage

/-! ## Requests -/

/-- The table of the given requests, some of which may repeat others. -/
structure RequestTable.Holds (t : RequestTable) (specifiers : List String) : Prop where
  toList : t.toList = specifiers.eraseDups
  index : ∀ s, t.indices[s]?.isSome ↔ s ∈ specifiers

theorem RequestTable.holds_empty : RequestTable.empty.Holds [] := by
  constructor <;> simp [RequestTable.empty, RequestTable.toList]

theorem RequestTable.Holds.request {t : RequestTable} {specifiers : List String} (h : t.Holds specifiers)
    (specifier : String) : (t.request specifier).2.Holds (specifiers ++ [specifier]) where
  toList := by
    simp only [toList_request, h.index, h.toList, eraseDups_snoc]
  index s := by
    unfold RequestTable.request
    split
    next index hindex =>
      have hmem : specifier ∈ specifiers := (h.index specifier).mp (by simp [hindex])
      rw [h.index, List.mem_append, List.mem_singleton]
      constructor
      · exact .inl
      · intro hs
        rcases hs with hs | rfl
        · exact hs
        · exact hmem
    next hindex =>
      simp only [Std.ExtTreeMap.getElem?_insert, Std.LawfulEqCmp.compare_eq_iff_eq, List.mem_append, List.mem_singleton]
      by_cases hs : specifier = s
      · simp [hs]
      · simp [hs, Ne.symm hs, ← h.index]

/-! ## Imports -/

/-- The table of the given imports. -/
structure ImportTable.Holds (t : ImportTable) (imports : List Import) : Prop where
  toList : t.toList = imports
  importsOf : ∀ name, t.importsOf name = imports.filter (·.localName == name)
  bounded : ∀ name, ∀ p ∈ (t.positionsOf name).toList, p < t.size

theorem ImportTable.holds_empty : ImportTable.empty.Holds [] := by
  constructor <;> simp [ImportTable.empty, ImportTable.toList, ImportTable.importsOf, ImportTable.positionsOf]

/-- A push leaves every position with its import. -/
theorem ImportTable.importsOf_push {t : ImportTable} {name : String} (h : ∀ p ∈ (t.positionsOf name).toList, p < t.size)
    (i : Import) : (t.push i).importsOf name = if i.localName = name then t.importsOf name ++ [i] else t.importsOf name := by
  have hold : (t.positionsOf name).toList.filterMap ((t.push i).entries[·]?) = t.importsOf name := by
    refine List.filterMap_congr fun p hp => ?_
    have hlt : p < t.entries.size := h p hp
    simp only [push, Array.getElem?_push, Nat.ne_of_lt hlt, if_false]
  unfold importsOf
  rw [positionsOf_push]
  split
  · rw [Array.toList_push, List.filterMap_append, hold]
    simp [push, size, importsOf]
  · exact hold

theorem ImportTable.Holds.push {t : ImportTable} {imports : List Import} (h : t.Holds imports) (i : Import) :
    (t.push i).Holds (imports ++ [i]) where
  toList := by rw [toList_push, h.toList]
  importsOf name := by
    rw [importsOf_push (h.bounded name), h.importsOf, List.filter_append]
    by_cases hn : i.localName = name <;> simp [hn]
  bounded name := by
    have hsize : (t.push i).size = t.size + 1 := by simp [ImportTable.push, ImportTable.size]
    rw [positionsOf_push, hsize]
    split
    · simp only [Array.toList_push, List.mem_append, List.mem_singleton]
      intro p hp
      rcases hp with hp | rfl
      · exact Nat.lt_succ_of_lt (h.bounded name p hp)
      · exact Nat.lt_succ_self _
    · exact fun p hp => Nat.lt_succ_of_lt (h.bounded name p hp)

theorem ImportTable.Holds.first? {t : ImportTable} {imports : List Import} (h : t.Holds imports) (name : String) :
    t.first? name = imports.find? (·.localName == name) := by
  rw [ImportTable.first?, h.importsOf, List.head?_filter]

/-! ## Local exports -/

/-- Exports grouped by local name: the names in the order in which they first come, the exports of
a name in the order in which they come. -/
def grouped (es : List LocalExport) : List LocalExport :=
  (es.map (·.localName)).eraseDups.flatMap fun name => es.filter (·.localName == name)

/-- The table of the given exports. -/
structure LocalExportTable.Holds (t : LocalExportTable) (es : List LocalExport) : Prop where
  order : t.order.toList = (es.map (·.localName)).eraseDups
  group : ∀ name, t.group name = es.filter (·.localName == name)
  index : ∀ name, name ∈ t.groups ↔ name ∈ es.map (·.localName)

theorem LocalExportTable.holds_empty : LocalExportTable.empty.Holds [] := by
  constructor <;> simp [LocalExportTable.empty, LocalExportTable.group]

theorem LocalExportTable.Holds.toList {t : LocalExportTable} {es : List LocalExport} (h : t.Holds es) :
    t.toList = grouped es := by
  rw [LocalExportTable.toList, h.order, grouped]
  exact List.flatMap_congr fun name _ => h.group name

/-- The group that is stored under a name. -/
theorem LocalExportTable.Holds.toList_of_getElem? {t : LocalExportTable} {es : List LocalExport} (h : t.Holds es)
    {name : String} {g : Array LocalExport} (hg : t.groups[name]? = some g) :
    g.toList = es.filter (·.localName == name) := by
  rw [← h.group, LocalExportTable.group, hg, Option.getD_some]

/-- What is stored is what is listed, in another order. -/
theorem LocalExportTable.Holds.mem_stored {t : LocalExportTable} {es : List LocalExport} (h : t.Holds es)
    (e : LocalExport) : e ∈ t.stored ↔ e ∈ es := by
  simp only [LocalExportTable.stored, List.mem_flatMap, Prod.exists, Std.ExtTreeMap.mem_toList_iff_getElem?_eq_some]
  constructor
  · intro hmem
    obtain ⟨name, g, hg, he⟩ := hmem
    rw [h.toList_of_getElem? hg] at he
    exact (List.mem_filter.mp he).1
  · intro he
    have hindex : e.localName ∈ t.groups := (h.index _).mpr (List.mem_map_of_mem he)
    refine ⟨e.localName, t.groups[e.localName], Std.ExtTreeMap.getElem?_eq_some_getElem hindex, ?_⟩
    rw [h.toList_of_getElem? (Std.ExtTreeMap.getElem?_eq_some_getElem hindex)]
    exact List.mem_filter.mpr ⟨he, by simp⟩

theorem LocalExportTable.Holds.insert {t : LocalExportTable} {es : List LocalExport} (h : t.Holds es)
    (e : LocalExport) : (t.insert e).Holds (es ++ [e]) where
  order := by
    rw [List.map_append, List.map_singleton, eraseDups_snoc]
    simp only [← h.index, Std.ExtTreeMap.mem_iff_isSome_getElem?]
    unfold LocalExportTable.insert
    split <;> simp [h.order, *]
  group name := by
    rw [group_insert, h.group, List.filter_append]
    by_cases hn : e.localName = name <;> simp [hn]
  index name := by
    have hmem : name ∈ (t.insert e).groups ↔ e.localName = name ∨ name ∈ t.groups := by
      unfold LocalExportTable.insert
      split <;> simp
    rw [hmem, h.index, List.map_append, List.mem_append, List.map_singleton, List.mem_singleton, eq_comm (a := name), or_comm]

theorem LocalExportTable.Holds.removeGroup {t : LocalExportTable} {es : List LocalExport} (h : t.Holds es)
    (removed : String) : (t.removeGroup removed).Holds (es.filter (·.localName != removed)) where
  order := by
    have hmap : (es.filter (·.localName != removed)).map (·.localName) =
        (es.map (·.localName)).filter (· != removed) := by
      rw [List.filter_map]
      rfl
    rw [hmap, eraseDups_filter, ← h.order, LocalExportTable.removeGroup, Array.toList_filter]
  group name := by
    rw [group_removeGroup, h.group, List.filter_filter]
    by_cases hn : removed = name
    · subst hn
      simp
    · rw [if_neg hn]
      refine List.filter_congr fun e _ => ?_
      by_cases he : e.localName = name
      · simp [he, Ne.symm hn]
      · simp [he]
  index name := by
    simp only [LocalExportTable.removeGroup, Std.ExtTreeMap.mem_erase, ne_eq, Std.LawfulEqCmp.compare_eq_iff_eq, h.index,
      List.mem_map, List.mem_filter, bne_iff_ne]
    constructor
    · intro hname
      obtain ⟨hne, e, he, rfl⟩ := hname
      exact ⟨e, ⟨he, Ne.symm hne⟩, rfl⟩
    · intro hname
      obtain ⟨e, ⟨he, hne⟩, rfl⟩ := hname
      exact ⟨Ne.symm hne, e, he, rfl⟩

end Linkage

end ScriptAssembly
