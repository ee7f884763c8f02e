import ScriptAssembly.Linkage.Sections
import ScriptAssembly.Proofs.Except
import ScriptAssembly.Proofs.Registration
/-
A linkage can be read back from its literal array.

Nothing stands between the entries of a section, and nothing between the
sections. The array can be read all the same because an entry of each kind is
always the same number of literals, and their count comes first. `ReadsBack`
says of a writer and a reader that one undoes the other in front of any
other literals. It holds of every kind of entry, so of a section, so of the
six of them in a row; and the one thing that is not written, the empty import
name of a namespace import, is the same in every linkage that a run comes to.
-/
namespace ScriptAssembly

namespace Sections

/-- Whatever is written for a value is so many literals, and is read back in front of any others. -/
def ReadsBack {α : Type} (write : α → Except Breach (List Literal)) (read : Reader α) (size : Nat) (x : α) : Prop :=
  ∀ literals, write x = .ok literals → literals.length = size ∧ ∀ rest, read (literals ++ rest) = some (x, rest)

/-! ## Numbers -/

theorem countLiteral_ok {n : Nat} {l : Literal} (h : countLiteral n = .ok l) : ∃ k, l = .integer k ∧ k.toNat = n := by
  unfold countLiteral at h
  split at h
  next hn => cases h; exact ⟨n.toUInt32, rfl, UInt32.toNat_ofNat_of_lt hn⟩
  · cases h

theorem requestLiteral_ok {index : Nat} {l : Literal} (h : requestLiteral index = .ok l) :
    ∃ k, l = .methodAffiliate k ∧ k.toNat = index := by
  unfold requestLiteral at h
  split at h
  next hi => cases h; exact ⟨index.toUInt16, rfl, UInt16.toNat_ofNat_of_lt hi⟩
  · cases h

/-! ## Entries -/

theorem specifier_readsBack (s : String) : ReadsBack specifierLiterals readSpecifier? 1 s := by
  intro literals h
  cases h
  exact ⟨rfl, fun rest => rfl⟩

theorem regularImport_readsBack (i : Import) : ReadsBack regularImportLiterals readRegularImport? 3 i := by
  intro literals h
  simp only [regularImportLiterals, bind_eq_ok, pure_eq_ok] at h
  obtain ⟨request, hrequest, rfl⟩ := h
  obtain ⟨k, rfl, hk⟩ := requestLiteral_ok hrequest
  exact ⟨rfl, fun rest => by simp [readRegularImport?, hk]⟩

/-- The import name is not written, so it must be the empty one. -/
theorem namespaceImport_readsBack {i : Import} (hi : i.importName = "") :
    ReadsBack namespaceImportLiterals readNamespaceImport? 2 i := by
  intro literals h
  simp only [namespaceImportLiterals, bind_eq_ok, pure_eq_ok] at h
  obtain ⟨request, hrequest, rfl⟩ := h
  obtain ⟨k, rfl, hk⟩ := requestLiteral_ok hrequest
  exact ⟨rfl, fun rest => by simp [readNamespaceImport?, Import.ofNamespace, hk, ← hi]⟩

theorem localExport_readsBack (e : LocalExport) : ReadsBack localExportLiterals readLocalExport? 2 e := by
  intro literals h
  cases h
  exact ⟨rfl, fun rest => rfl⟩

theorem indirectExport_readsBack (e : IndirectExport) : ReadsBack indirectExportLiterals readIndirectExport? 3 e := by
  intro literals h
  simp only [indirectExportLiterals, bind_eq_ok, pure_eq_ok] at h
  obtain ⟨request, hrequest, rfl⟩ := h
  obtain ⟨k, rfl, hk⟩ := requestLiteral_ok hrequest
  exact ⟨rfl, fun rest => by simp [readIndirectExport?, hk]⟩

theorem starExport_readsBack (e : StarExport) : ReadsBack starExportLiterals readStarExport? 1 e := by
  intro literals h
  simp only [starExportLiterals, bind_eq_ok, pure_eq_ok] at h
  obtain ⟨request, hrequest, rfl⟩ := h
  obtain ⟨k, rfl, hk⟩ := requestLiteral_ok hrequest
  exact ⟨rfl, fun rest => by simp [readStarExport?, hk]⟩

/-! ## Sections -/

section Entries

variable {α : Type} {write : α → Except Breach (List Literal)} {read : Reader α} {width : Nat}

theorem readEntries?_flatten {xs : List α} {parts : List (List Literal)}
    (h : List.Forall₂ (fun x literals => write x = .ok literals) xs parts)
    (hx : ∀ x ∈ xs, ReadsBack write read width x) :
    parts.flatten.length = width * xs.length ∧
      ∀ rest, readEntries? read xs.length (parts.flatten ++ rest) = some (xs, rest) := by
  induction h with
  | nil => exact ⟨rfl, fun rest => rfl⟩
  | @cons x literals xs parts hwrite _ ih =>
    obtain ⟨hlength, hread⟩ := hx x (by simp) literals hwrite
    obtain ⟨hlengths, hreads⟩ := ih fun y hy => hx y (by simp [hy])
    constructor
    · rw [List.flatten_cons, List.length_append, hlength, hlengths, List.length_cons, Nat.mul_succ, Nat.add_comm]
    · intro rest
      rw [List.flatten_cons, List.append_assoc, List.length_cons]
      simp only [readEntries?, hread, hreads, Option.bind_eq_bind, Option.bind_some]
      rfl

/-- **A section is read back** by its count alone if its entries are. -/
theorem section_readsBack {xs : List α} (hx : ∀ x ∈ xs, ReadsBack write read width x) :
    ReadsBack (sectionLiterals write) (readSection? read) (1 + width * xs.length) xs := by
  intro literals h
  simp only [sectionLiterals, bind_eq_ok, pure_eq_ok] at h
  obtain ⟨count, hcount, parts, hparts, rfl⟩ := h
  obtain ⟨k, rfl, hk⟩ := countLiteral_ok hcount
  obtain ⟨hlength, hread⟩ := readEntries?_flatten (mapM_eq_ok.mp hparts) hx
  constructor
  · rw [List.length_cons, hlength, Nat.add_comm]
  · intro rest
    simp only [List.cons_append, readSection?, hk, hread]

end Entries

/-- The number of literals of the six sections: a count each, and the entries. -/
def literalCount (s : Sections) : Nat :=
  6 + s.requests.length + 3 * s.regularImports.length + 2 * s.namespaceImports.length + 2 * s.localExports.length
    + 3 * s.indirectExports.length + s.starExports.length

/-- **The six sections are read back** if no namespace import has an import name. -/
theorem literals_readsBack {s : Sections} (hs : ∀ i ∈ s.namespaceImports, i.importName = "") :
    ReadsBack literals read? s.literalCount s := by
  intro literals h
  simp only [Sections.literals, bind_eq_ok, pure_eq_ok] at h
  obtain ⟨requests, h₁, regular, h₂, namespaces, h₃, locals, h₄, indirect, h₅, star, h₆, rfl⟩ := h
  obtain ⟨n₁, r₁⟩ := section_readsBack (fun x _ => specifier_readsBack x) _ h₁
  obtain ⟨n₂, r₂⟩ := section_readsBack (fun x _ => regularImport_readsBack x) _ h₂
  obtain ⟨n₃, r₃⟩ := section_readsBack (fun x hx => namespaceImport_readsBack (hs x hx)) _ h₃
  obtain ⟨n₄, r₄⟩ := section_readsBack (fun x _ => localExport_readsBack x) _ h₄
  obtain ⟨n₅, r₅⟩ := section_readsBack (fun x _ => indirectExport_readsBack x) _ h₅
  obtain ⟨n₆, r₆⟩ := section_readsBack (fun x _ => starExport_readsBack x) _ h₆
  constructor
  · simp only [List.length_append, n₁, n₂, n₃, n₄, n₅, n₆, literalCount]
    omega
  · intro rest
    simp only [List.append_assoc, read?, r₁, r₂, r₃, r₄, r₅, r₆, Option.bind_eq_bind, Option.bind_some]
    rfl

end Sections

namespace Linkage

/-- No namespace import that a run registers has an import name. -/
theorem run_namespaceImports (rs : List Registration) :
    ∀ i ∈ (Linkage.empty.run rs).namespaceImports.toList, i.importName = "" := by
  refine run_invariant (I := fun l => ∀ i ∈ l.namespaceImports.toList, i.importName = "") (fun {l r} hr h => ?_) rs ?_
  · rw [put_namespaceImports]
    cases r with
    | namespaceImport i =>
      simp only [Registration.wellFormed, Bool.and_eq_true, String.isEmpty_iff] at hr
      simp only [Registration.namespaceImport?, Option.elim_some, Array.toList_push, List.mem_append,
        List.mem_singleton]
      intro j hj
      rcases hj with hj | rfl
      · exact h j hj
      · exact hr.1.1
    | request | regularImport | localExport | indirectExport | starExport => exact h
  · simp [Linkage.empty]

/-- **The literal array of a linkage tells all its sections,** and by nothing but the counts. Two runs with
one array have the same contents. -/
theorem read?_literals_run (rs : List Registration) {literals : List Literal}
    (h : (Linkage.empty.run rs).literals = .ok literals) :
    Sections.read? literals = some ((Linkage.empty.run rs).sections, []) ∧
      (∀ rs', (Linkage.empty.run rs').literals = .ok literals →
        (Linkage.empty.run rs').sections = (Linkage.empty.run rs).sections) ∧
      literals.length = 6 + (Linkage.empty.run rs).sections.requests.length
        + 3 * (Linkage.empty.run rs).sections.regularImports.length
        + 2 * (Linkage.empty.run rs).sections.namespaceImports.length
        + 2 * (Linkage.empty.run rs).sections.localExports.length
        + 3 * (Linkage.empty.run rs).sections.indirectExports.length
        + (Linkage.empty.run rs).sections.starExports.length := by
  have hread : ∀ rs', (Linkage.empty.run rs').literals = .ok literals →
      Sections.read? literals = some ((Linkage.empty.run rs').sections, []) := by
    intro rs' h'
    have hrest := (Sections.literals_readsBack (run_namespaceImports rs') literals h').2 []
    rwa [List.append_nil] at hrest
  refine ⟨hread rs h, fun rs' h' => ?_, (Sections.literals_readsBack (run_namespaceImports rs) literals h).1⟩
  have hsame := (hread rs' h').symm.trans (hread rs h)
  exact congrArg Prod.fst (Option.some.inj hsame)

/-- A binding is exported before it is imported. -/
def exportFirst : List Registration :=
  [.request "m", .request "n", .namespaceImport ⟨1, "", "ns"⟩, .localExport ⟨"y", "x"⟩, .localExport ⟨"z", "own"⟩,
    .regularImport ⟨0, "q", "x"⟩, .starExport ⟨1⟩]

/-- The same binding is imported before it is exported. -/
def importFirst : List Registration :=
  [.request "m", .regularImport ⟨0, "q", "x"⟩, .localExport ⟨"y", "x"⟩, .request "n", .starExport ⟨1⟩,
    .namespaceImport ⟨1, "", "ns"⟩, .localExport ⟨"z", "own"⟩]

/-- Both ways lead to one array, which has an entry in each section. -/
theorem read?_literals_run_relay : ∃ literals,
    (Linkage.empty.run exportFirst).literals = .ok literals ∧ (Linkage.empty.run importFirst).literals = .ok literals ∧
      Sections.read? literals = some
        (⟨["m", "n"], [⟨0, "q", "x"⟩], [⟨1, "", "ns"⟩], [⟨"z", "own"⟩], [⟨"y", "q", 0⟩], [⟨1⟩]⟩, []) ∧
      (Linkage.empty.run importFirst).sections = (Linkage.empty.run exportFirst).sections ∧ literals.length = 19 := by
  obtain ⟨literals, h⟩ := exists_ok_of_isOk (x := (Linkage.empty.run exportFirst).literals) (by decide +kernel)
  have h' : (Linkage.empty.run importFirst).literals = .ok literals := by
    rw [← h]
    decide +kernel
  have hsections : (Linkage.empty.run exportFirst).sections =
      ⟨["m", "n"], [⟨0, "q", "x"⟩], [⟨1, "", "ns"⟩], [⟨"z", "own"⟩], [⟨"y", "q", 0⟩], [⟨1⟩]⟩ := by decide +kernel
  obtain ⟨hread, hsame, hlength⟩ := read?_literals_run exportFirst h
  rw [hsections] at hread hlength
  exact ⟨literals, h, h', hread, hsame importFirst h', hlength⟩

end Linkage

end ScriptAssembly
