import ScriptAssembly.Linkage.Entry
import Std.Data.ExtTreeMap
/-
The tables of a linkage.

A specifier of a module request is stored once; its index is the number of
different specifiers requested before it, and never changes. `indices` is the
inverse of `specifiers`.

Regular imports stay in the order of their registration. Several of them may
bind one local name; `positions` lists, for each name, where its imports are.

Local exports are grouped by the local name that they export. Groups are in
the order in which their names first came, exports inside a group in the order
of their registration. A whole group can be taken out, as happens when its
name turns out to be imported.
-/
namespace ScriptAssembly.Linkage

/-! ## Module requests -/

/-- The module requests of a linkage. -/
structure RequestTable where
  /-- Each requested specifier, at its index. -/
  specifiers : Array String
  /-- The index of each requested specifier. -/
  indices : Std.ExtTreeMap String Nat

namespace RequestTable

def empty : RequestTable := ⟨#[], ∅⟩

def toList (t : RequestTable) : List String := t.specifiers.toList

def size (t : RequestTable) : Nat := t.specifiers.size

/-- The specifier of an index that was given out. -/
def specifier? (t : RequestTable) (index : Nat) : Option String := t.specifiers[index]?

/-- The index of a specifier, which is a new one at the first request. -/
def request (t : RequestTable) (specifier : String) : Nat × RequestTable :=
  match t.indices[specifier]? with
  | some index => (index, t)
  | none => (t.size, ⟨t.specifiers.push specifier, t.indices.insert specifier t.size⟩)

/-- A request adds the specifier at the end, or nothing if it has an index already. -/
theorem toList_request (t : RequestTable) (specifier : String) :
    (t.request specifier).2.toList =
      if t.indices[specifier]?.isSome then t.toList else t.toList ++ [specifier] := by
  unfold request
  split <;> simp [toList, *]

end RequestTable

/-! ## Regular imports -/

/-- The regular imports of a linkage. -/
structure ImportTable where
  entries : Array Import
  /-- The positions in `entries` of the imports that bind a name, in increasing order. -/
  positions : Std.ExtTreeMap String (Array Nat)

namespace ImportTable

def empty : ImportTable := ⟨#[], ∅⟩

def toList (t : ImportTable) : List Import := t.entries.toList

def size (t : ImportTable) : Nat := t.entries.size

/-- Where the imports that bind a local name are. -/
def positionsOf (t : ImportTable) (localName : String) : Array Nat :=
  t.positions[localName]?.getD #[]

/-- The imports that bind a local name, in the order of their registration. -/
def importsOf (t : ImportTable) (localName : String) : List Import :=
  (t.positionsOf localName).toList.filterMap (t.entries[·]?)

/-- The first import that binds a local name. -/
def first? (t : ImportTable) (localName : String) : Option Import :=
  (t.importsOf localName).head?

/-- The table with one more import at its end. -/
def push (t : ImportTable) (i : Import) : ImportTable where
  entries := t.entries.push i
  positions := t.positions.insert i.localName ((t.positionsOf i.localName).push t.entries.size)

@[simp] theorem toList_push (t : ImportTable) (i : Import) :
    (t.push i).toList = t.toList ++ [i] := by
  simp [toList, push]

/-- A push adds one position, to the name that the import binds. -/
theorem positionsOf_push (t : ImportTable) (i : Import) (localName : String) :
    (t.push i).positionsOf localName =
      if i.localName = localName then (t.positionsOf localName).push t.size
      else t.positionsOf localName := by
  simp only [positionsOf, push, Std.ExtTreeMap.getElem?_insert, Std.LawfulEqCmp.compare_eq_iff_eq]
  split
  · next h => subst h; rfl
  · rfl

end ImportTable

/-! ## Local exports -/

/-- The local exports of a linkage. -/
structure LocalExportTable where
  /-- The local names that have a group, in order of appearance. -/
  order : Array String
  groups : Std.ExtTreeMap String (Array LocalExport)

namespace LocalExportTable

def empty : LocalExportTable := ⟨#[], ∅⟩

/-- The exports of a local name. -/
def group (t : LocalExportTable) (localName : String) : List LocalExport :=
  (t.groups[localName]?.getD #[]).toList

/-- All exports, group by group. -/
def toList (t : LocalExportTable) : List LocalExport := t.order.toList.flatMap t.group

/-- All exports, in whatever order the groups are kept. -/
def stored (t : LocalExportTable) : List LocalExport := t.groups.toList.flatMap (·.2.toList)

/-- The table with one more export, in its name's group. -/
def insert (t : LocalExportTable) (e : LocalExport) : LocalExportTable :=
  match t.groups[e.localName]? with
  | some es => { t with groups := t.groups.insert e.localName (es.push e) }
  | none => ⟨t.order.push e.localName, t.groups.insert e.localName #[e]⟩

/-- The table without the group of a local name. -/
def removeGroup (t : LocalExportTable) (localName : String) : LocalExportTable :=
  ⟨t.order.filter (· != localName), t.groups.erase localName⟩

/-- An insertion adds to the group of its own local name. -/
theorem group_insert (t : LocalExportTable) (e : LocalExport) (localName : String) :
    (t.insert e).group localName =
      if e.localName = localName then t.group localName ++ [e] else t.group localName := by
  unfold insert group
  split
  · next es h =>
    simp only [Std.ExtTreeMap.getElem?_insert, Std.LawfulEqCmp.compare_eq_iff_eq]
    split
    · next hn => subst hn; simp [h]
    · rfl
  · next h =>
    simp only [Std.ExtTreeMap.getElem?_insert, Std.LawfulEqCmp.compare_eq_iff_eq]
    split
    · next hn => subst hn; simp [h]
    · rfl

/-- A removed group is empty, and no other group changes. -/
theorem group_removeGroup (t : LocalExportTable) (removed localName : String) :
    (t.removeGroup removed).group localName =
      if removed = localName then [] else t.group localName := by
  simp only [removeGroup, group, Std.ExtTreeMap.getElem?_erase,
    Std.LawfulEqCmp.compare_eq_iff_eq]
  split <;> rfl

end LocalExportTable

end ScriptAssembly.Linkage
