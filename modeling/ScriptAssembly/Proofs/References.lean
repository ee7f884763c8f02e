import ScriptAssembly.Proofs.Except
import ScriptAssembly.Proofs.History
import ScriptAssembly.Proofs.Keys
import ScriptAssembly.Proofs.Requests
import ScriptAssembly.Proofs.Sections
/-
What the indexes in a literal array refer to.

Four of the six sections name requests by index, and an index has 16 bits
there. So an array can be written unless an index is named that is too large
(`literals_reports`); how many requests there are is of no account as long as
they are not named. In an array that is written, every index leads to a
specifier of the first section. It is the one that was requested when the index
was given out, before the entry with this index was registered: the table of
requests only grows, and a registration is accepted with an index that is
there already. A local export that became an indirect one goes through an import,
and has the index of that one's registration.
-/
namespace ScriptAssembly

/-- The number that a method affiliate is. -/
def Literal.affiliate? : Literal → Option Nat
  | .methodAffiliate k => some k.toNat
  | _ => none

namespace Sections

/-! ## Named requests -/

/-- The request indexes that entries name, in the order in which they are written. -/
def references (s : Sections) : List Nat :=
  s.regularImports.map (·.request) ++ s.namespaceImports.map (·.request) ++ s.indirectExports.map (·.request)
    ++ s.starExports.map (·.request)

/-- The number of entries of every section fits its literal. -/
structure CountsFit (s : Sections) : Prop where
  requests : s.requests.length < UInt32.size
  regularImports : s.regularImports.length < UInt32.size
  namespaceImports : s.namespaceImports.length < UInt32.size
  localExports : s.localExports.length < UInt32.size
  indirectExports : s.indirectExports.length < UInt32.size
  starExports : s.starExports.length < UInt32.size

/-! ## Faults -/

def requestFaults (index : Nat) : List Breach := if index < UInt16.size then [] else [.requestTooLarge index]

theorem requestLiteral_reports (index : Nat) : Reports (requestLiteral index) (requestFaults index) := by
  unfold requestLiteral requestFaults
  split <;> rfl

section Entries

variable {α : Type} {write : α → Except Breach (List Literal)} {xs : List α}

theorem section_reports {faults : α → List Breach} (hlength : xs.length < UInt32.size)
    (hwrite : ∀ x ∈ xs, Reports (write x) (faults x)) : Reports (sectionLiterals write xs) (xs.flatMap faults) := by
  have hcount : Reports (countLiteral xs.length) [] := by
    rw [countLiteral, if_pos hlength]
    rfl
  exact hcount.bind fun count _ => (Reports.mapM hwrite).bind_pure fun parts => count :: parts.flatten

/-- A section of entries that each name a request. -/
theorem section_reports_requests (request : α → Nat) (hlength : xs.length < UInt32.size)
    (hwrite : ∀ x ∈ xs, Reports (write x) (requestFaults (request x))) :
    Reports (sectionLiterals write xs) ((xs.map request).flatMap requestFaults) := by
  rw [List.flatMap_map]
  exact section_reports hlength hwrite

/-- A section of entries that name none. -/
theorem section_reports_nil (hlength : xs.length < UInt32.size) (hwrite : ∀ x ∈ xs, Reports (write x) []) :
    Reports (sectionLiterals write xs) [] := by
  have hreports := section_reports hlength hwrite
  rwa [List.flatMap_eq_nil_iff.mpr fun _ _ => rfl] at hreports

end Entries

/-- An array cannot be written for the first index that is too large, and for nothing else. -/
theorem literals_reports {s : Sections} (h : s.CountsFit) :
    Reports s.literals (s.references.flatMap requestFaults) := by
  have hrequests : Reports (sectionLiterals specifierLiterals s.requests) [] :=
    section_reports_nil h.requests fun _ _ => rfl
  have hregular := section_reports_requests Import.request h.regularImports fun i _ =>
    (requestLiteral_reports i.request).bind_pure fun l => [Literal.string i.localName, .string i.importName, l]
  have hnamespace := section_reports_requests Import.request h.namespaceImports fun i _ =>
    (requestLiteral_reports i.request).bind_pure fun l => [Literal.string i.localName, l]
  have hlocal : Reports (sectionLiterals localExportLiterals s.localExports) [] :=
    section_reports_nil h.localExports fun _ _ => rfl
  have hindirect := section_reports_requests IndirectExport.request h.indirectExports fun e _ =>
    (requestLiteral_reports e.request).bind_pure fun l => [Literal.string e.exportName, .string e.importName, l]
  have hstar := section_reports_requests StarExport.request h.starExports fun e _ =>
    (requestLiteral_reports e.request).bind_pure fun l => [l]
  simp only [references, List.flatMap_append, List.append_assoc]
  refine hrequests.bind fun requests _ => hregular.bind fun regular _ => hnamespace.bind fun namespaces _ => ?_
  exact hlocal.bind fun locals _ => hindirect.bind fun indirect _ => hstar.bind_pure _

theorem requestFaults_eq (indexes : List Nat) :
    indexes.flatMap requestFaults = (indexes.filter (65535 < ·)).map .requestTooLarge := by
  induction indexes with
  | nil => rfl
  | cons index indexes ih =>
    rw [List.flatMap_cons, List.filter_cons, ih, requestFaults]
    by_cases hindex : index < UInt16.size
    · simp [hindex, Nat.not_lt.mpr (Nat.le_of_lt_succ hindex)]
    · simp [hindex, Nat.lt_of_succ_le (Nat.le_of_not_lt hindex)]

/-! ## Written indexes -/

section Entries

variable {α : Type} {write : α → Except Breach (List Literal)} {xs : List α} {literals : List Literal}
  {indexes : α → List Nat}

theorem flatten_affiliates {parts : List (List Literal)}
    (h : List.Forall₂ (fun x part => write x = .ok part) xs parts)
    (hwrite : ∀ x part, write x = .ok part → part.filterMap Literal.affiliate? = indexes x) :
    parts.flatten.filterMap Literal.affiliate? = xs.flatMap indexes := by
  induction h with
  | nil => rfl
  | cons hpart _ ih => rw [List.flatten_cons, List.filterMap_append, List.flatMap_cons, hwrite _ _ hpart, ih]

theorem section_affiliates (h : sectionLiterals write xs = .ok literals)
    (hwrite : ∀ x part, write x = .ok part → part.filterMap Literal.affiliate? = indexes x) :
    literals.filterMap Literal.affiliate? = xs.flatMap indexes := by
  simp only [sectionLiterals, bind_eq_ok, pure_eq_ok] at h
  obtain ⟨count, hcount, parts, hparts, rfl⟩ := h
  obtain ⟨k, rfl, -⟩ := countLiteral_ok hcount
  exact flatten_affiliates (mapM_eq_ok.mp hparts) hwrite

theorem section_affiliates_requests (request : α → Nat) (h : sectionLiterals write xs = .ok literals)
    (hwrite : ∀ x part, write x = .ok part → part.filterMap Literal.affiliate? = [request x]) :
    literals.filterMap Literal.affiliate? = xs.map request := by
  rw [section_affiliates h hwrite, List.map_eq_flatMap]

theorem section_affiliates_nil (h : sectionLiterals write xs = .ok literals)
    (hwrite : ∀ x part, write x = .ok part → part.filterMap Literal.affiliate? = []) :
    literals.filterMap Literal.affiliate? = [] := by
  rw [section_affiliates h hwrite]
  exact List.flatMap_eq_nil_iff.mpr fun _ _ => rfl

end Entries

/-- The literal of an index, behind literals that are strings. -/
theorem affiliates_of_request {index : Nat} {part : List Literal} (names : List Literal)
    (h : (requestLiteral index >>= fun l => pure (names ++ [l])) = .ok part)
    (hnames : names.filterMap Literal.affiliate? = []) : part.filterMap Literal.affiliate? = [index] := by
  simp only [bind_eq_ok, pure_eq_ok] at h
  obtain ⟨l, hl, rfl⟩ := h
  obtain ⟨k, rfl, hk⟩ := requestLiteral_ok hl
  rw [List.filterMap_append, hnames]
  simp [Literal.affiliate?, hk]

/-- The indexes are written as they stand in the sections. -/
theorem literals_affiliates {s : Sections} {literals : List Literal} (h : s.literals = .ok literals) :
    literals.filterMap Literal.affiliate? = s.references := by
  simp only [Sections.literals, bind_eq_ok, pure_eq_ok] at h
  obtain ⟨requests, h₁, regular, h₂, namespaces, h₃, locals, h₄, indirect, h₅, star, h₆, rfl⟩ := h
  have e₁ := section_affiliates_nil h₁ fun s part hpart => by cases hpart; rfl
  have e₂ := section_affiliates_requests Import.request h₂ fun i part hpart =>
    affiliates_of_request [.string i.localName, .string i.importName] hpart rfl
  have e₃ := section_affiliates_requests Import.request h₃ fun i part hpart =>
    affiliates_of_request [.string i.localName] hpart rfl
  have e₄ := section_affiliates_nil h₄ fun e part hpart => by cases hpart; rfl
  have e₅ := section_affiliates_requests IndirectExport.request h₅ fun e part hpart =>
    affiliates_of_request [.string e.exportName, .string e.importName] hpart rfl
  have e₆ := section_affiliates_requests StarExport.request h₆ fun e part hpart =>
    affiliates_of_request [] hpart rfl
  simp only [List.filterMap_append, e₁, e₂, e₃, e₄, e₅, e₆, references, List.nil_append, List.append_nil]

theorem flatten_specifiers {specifiers : List String} {parts : List (List Literal)}
    (h : List.Forall₂ (fun s part => specifierLiterals s = .ok part) specifiers parts) :
    parts.flatten = specifiers.map .string := by
  induction h with
  | nil => rfl
  | cons hpart _ ih =>
    cases hpart
    rw [List.flatten_cons, ih, List.map_cons, List.singleton_append]

/-- The array begins with the number of requests and the specifiers. -/
theorem literals_requests {s : Sections} {literals : List Literal} (h : s.literals = .ok literals) :
    ∃ n rest, literals = .integer n :: (s.requests.map .string ++ rest) ∧ n.toNat = s.requests.length := by
  simp only [Sections.literals, bind_eq_ok, pure_eq_ok] at h
  obtain ⟨requests, h₁, regular, -, namespaces, -, locals, -, indirect, -, star, -, rfl⟩ := h
  simp only [sectionLiterals, bind_eq_ok, pure_eq_ok] at h₁
  obtain ⟨count, hcount, parts, hparts, rfl⟩ := h₁
  obtain ⟨n, rfl, hn⟩ := countLiteral_ok hcount
  rw [flatten_specifiers (mapM_eq_ok.mp hparts)]
  exact ⟨n, regular ++ (namespaces ++ (locals ++ (indirect ++ star))), by simp, hn⟩

end Sections

namespace Linkage

/-! ## Where entries come from -/

variable {l : Linkage} {rs : List Registration} {r : Registration} {literals : List Literal}

/-- A registration that a run accepts, at some step. -/
def Accepts (rs : List Registration) (r : Registration) : Prop := ∃ before, AcceptsAfter rs before r

theorem accepts_of_mem {step : Nat} (h : (r, step) ∈ Linkage.empty.accepted 0 rs) : Accepts rs r := by
  obtain ⟨before, after, hrs, hanswer⟩ := exists_of_mem_accepted h
  exact ⟨before, after, hrs, hanswer⟩

/-! ## What an index refers to -/

/-- An index in the literal array of a run, the registration that it comes from, and the specifier that it refers to. -/
structure RefersTo (rs : List Registration) (literals : List Literal) (r : Registration) (index : Nat)
    (before : List Registration) (specifier : String) : Prop where
  accepted : AcceptsAfter rs before r
  request : r.request? = some index
  /-- The index was given out for the specifier before the registration. -/
  given : GivesOut before specifier index
  only : ∀ other, GivesOut rs other index → other = specifier
  /-- The specifier is in its place behind the number of requests. -/
  written : literals[index + 1]? = some (.string specifier)

def Refers (rs : List Registration) (literals : List Literal) (r : Registration) (index : Nat) : Prop :=
  ∃ before specifier, RefersTo rs literals r index before specifier

/-- An indirect export that is a local one and goes through the first import of its name. -/
def PassesOn (rs : List Registration) (literals : List Literal) (e : IndirectExport) : Prop :=
  ∃ x i, e = x.redirect i ∧ Accepts rs (.localExport x) ∧
    (Linkage.empty.run rs).regularImports.first? x.localName = some i ∧ Refers rs literals (.regularImport i) e.request

/-- The literal array of a run, in which every index refers to a request. -/
structure WritesReferences (rs : List Registration) (literals : List Literal) : Prop where
  affiliates : literals.filterMap Literal.affiliate? = (Linkage.empty.run rs).sections.references
  /-- The first section has a specifier for every index that is named. -/
  bounded : ∃ n rest, literals = .integer n :: ((Linkage.empty.run rs).sections.requests.map .string ++ rest) ∧
    n.toNat = (Linkage.empty.run rs).sections.requests.length ∧
    ∀ k, .methodAffiliate k ∈ literals → k.toNat < n.toNat
  regularImports : ∀ i ∈ (Linkage.empty.run rs).sections.regularImports, Refers rs literals (.regularImport i) i.request
  namespaceImports : ∀ i ∈ (Linkage.empty.run rs).sections.namespaceImports,
    Refers rs literals (.namespaceImport i) i.request
  starExports : ∀ e ∈ (Linkage.empty.run rs).sections.starExports, Refers rs literals (.starExport e) e.request
  indirectExports : ∀ e ∈ (Linkage.empty.run rs).sections.indirectExports,
    Refers rs literals (.indirectExport e) e.request ∨ PassesOn rs literals e

/-- Every registration with an index refers to a request. -/
theorem refers_of_accepts {index : Nat} (hliterals : (Linkage.empty.run rs).literals = .ok literals) (h : Accepts rs r)
    (hindex : r.request? = some index) : Refers rs literals r index := by
  obtain ⟨before, hafter⟩ := h
  obtain ⟨after, rfl, hanswer⟩ := hafter
  obtain ⟨specifier, hgiven⟩ := exists_givesOut hanswer hindex
  have hgiven' := hgiven.append (r :: after)
  obtain ⟨n, rest, rfl, -⟩ := Sections.literals_requests hliterals
  refine ⟨before, specifier, ⟨after, rfl, hanswer⟩, hindex, hgiven, fun other hother => hgiven'.unique hother, ?_⟩
  have hplace := givesOut_iff.mp hgiven'
  rw [List.getElem?_cons_succ, List.getElem?_append_left, List.getElem?_map]
  · exact congrArg (Option.map Literal.string) hplace
  · obtain ⟨hlt, -⟩ := List.getElem?_eq_some_iff.mp hplace
    rw [List.length_map]
    exact hlt

/-- An index that is referred to is that of a request. -/
theorem Refers.lt {index : Nat} (h : Refers rs literals r index) :
    index < (Linkage.empty.run rs).requests.toList.length := by
  obtain ⟨before, specifier, hrefers⟩ := h
  obtain ⟨after, hrs, -⟩ := hrefers.accepted
  have hgiven := hrefers.given.append (r :: after)
  rw [← hrs, givesOut_iff] at hgiven
  exact (List.getElem?_eq_some_iff.mp hgiven).1

variable (h : (Linkage.empty.run rs).literals = .ok literals)

include h

theorem refers_of_regularImport {i : Import} (hi : i ∈ (Linkage.empty.run rs).regularImports.toList) :
    Refers rs literals (.regularImport i) i.request := by
  rw [(Reads.of_run rs).regularImports.toList] at hi
  obtain ⟨⟨i', step⟩, hmem, rfl⟩ := List.mem_map.mp hi
  obtain ⟨⟨r, step'⟩, haccepted, hr⟩ := List.mem_filterMap.mp hmem
  cases r <;> cases hr
  exact refers_of_accepts h (accepts_of_mem haccepted) rfl

theorem refers_of_namespaceImport {i : Import} (hi : i ∈ (Linkage.empty.run rs).namespaceImports.toList) :
    Refers rs literals (.namespaceImport i) i.request := by
  rw [(Reads.of_run rs).namespaceImports] at hi
  obtain ⟨⟨r, step⟩, haccepted, hr⟩ := List.mem_filterMap.mp hi
  cases r <;> cases hr
  exact refers_of_accepts h (accepts_of_mem haccepted) rfl

theorem refers_of_starExport {e : StarExport} (he : e ∈ (Linkage.empty.run rs).starExports.toList) :
    Refers rs literals (.starExport e) e.request := by
  rw [(Reads.of_run rs).starExports] at he
  obtain ⟨⟨r, step⟩, haccepted, hr⟩ := List.mem_filterMap.mp he
  cases r <;> cases hr
  exact refers_of_accepts h (accepts_of_mem haccepted) rfl

theorem refers_of_indirectExport {e : IndirectExport} (he : e ∈ (Linkage.empty.run rs).indirectExports.toList) :
    Refers rs literals (.indirectExport e) e.request ∨ PassesOn rs literals e := by
  have hreads := Reads.of_run rs
  rw [hreads.indirectExports] at he
  obtain ⟨step, hmem⟩ := mem_of_mem_byStep he
  obtain ⟨⟨r, step'⟩, haccepted, hr⟩ := List.mem_filterMap.mp hmem
  cases r with
  | indirectExport e' =>
    cases hr
    exact .inl (refers_of_accepts h (accepts_of_mem haccepted) rfl)
  | localExport x =>
    obtain ⟨⟨i, imported⟩, hfirst, heq⟩ := Option.map_eq_some_iff.mp hr
    cases heq
    have hfirst' : (Linkage.empty.run rs).regularImports.first? x.localName = some i := by
      rw [hreads.first?, hfirst]
      rfl
    exact .inr ⟨x, i, rfl, accepts_of_mem haccepted, hfirst', refers_of_regularImport h (mem_of_first? hfirst')⟩
  | request | regularImport | namespaceImport | starExport => cases hr

theorem refers_of_reference {index : Nat} (hindex : index ∈ (Linkage.empty.run rs).sections.references) :
    ∃ r, Refers rs literals r index := by
  simp only [Sections.references, List.mem_append, List.mem_map] at hindex
  obtain ((⟨i, hi, rfl⟩ | ⟨i, hi, rfl⟩) | ⟨e, he, rfl⟩) | ⟨e, he, rfl⟩ := hindex
  · exact ⟨_, refers_of_regularImport h hi⟩
  · exact ⟨_, refers_of_namespaceImport h hi⟩
  · obtain hrefers | ⟨x, i, -, -, -, hrefers⟩ := refers_of_indirectExport h he
    · exact ⟨_, hrefers⟩
    · exact ⟨_, hrefers⟩
  · exact ⟨_, refers_of_starExport h he⟩

theorem writesReferences_of_literals : WritesReferences rs literals where
  affiliates := Sections.literals_affiliates h
  bounded := by
    obtain ⟨n, rest, hn, hcount⟩ := Sections.literals_requests h
    refine ⟨n, rest, hn, hcount, fun k hk => ?_⟩
    have hmem : k.toNat ∈ (Linkage.empty.run rs).sections.references := by
      rw [← Sections.literals_affiliates h]
      exact List.mem_filterMap.mpr ⟨_, hk, rfl⟩
    obtain ⟨r, hrefers⟩ := refers_of_reference h hmem
    rw [hcount]
    exact hrefers.lt
  regularImports i hi := refers_of_regularImport h hi
  namespaceImports i hi := refers_of_namespaceImport h hi
  starExports e he := refers_of_starExport h he
  indirectExports e he := refers_of_indirectExport h he

omit h

/-! ## Requests that are not named -/

/-- Requests change nothing but the table of requests. -/
theorem run_requests (l : Linkage) (specifiers : List String) :
    ∃ requests, l.run (specifiers.map .request) = { l with requests } := by
  induction specifiers using List.reverseRecOn with
  | nil => exact ⟨l.requests, rfl⟩
  | append_singleton specifiers specifier ih =>
    obtain ⟨requests, hrun⟩ := ih
    rw [List.map_append, run_append, hrun]
    show ∃ requests', ({ l with requests } : Linkage).attempt (.request specifier) = { l with requests := requests' }
    by_cases ha : ({ l with requests } : Linkage).answer (.request specifier) = .ok true
    · rw [attempt_of_accepted ha]
      exact ⟨_, rfl⟩
    · rw [attempt_of_not_accepted ha]
      exact ⟨requests, rfl⟩

/-! ## Runs -/

/-- When the literal array of a run can be written, and what its indexes refer to then. -/
structure NamesRequests (rs : List Registration) : Prop where
  refused : (∃ b, (Linkage.empty.run rs).literals = .error b) ↔
    ∃ index ∈ (Linkage.empty.run rs).sections.references, 65535 < index
  /-- The first index that is too large is the one that is reported. -/
  cause : ∀ b, (Linkage.empty.run rs).literals = .error b ↔
    ((Linkage.empty.run rs).sections.references.find? (65535 < ·)).map .requestTooLarge = some b
  /-- More requests, whatever their number, make no difference as long as they can be counted. -/
  unused : ∀ specifiers : List String, (Linkage.empty.run (rs ++ specifiers.map .request)).sections.CountsFit →
    ∀ b, (Linkage.empty.run (rs ++ specifiers.map .request)).literals = .error b ↔
      (Linkage.empty.run rs).literals = .error b
  written : ∀ literals, (Linkage.empty.run rs).literals = .ok literals → WritesReferences rs literals

theorem literals_eq_error_iff (hfit : l.sections.CountsFit) {b : Sections.Breach} : l.literals = .error b ↔
    (l.sections.references.find? (65535 < ·)).map .requestTooLarge = some b := by
  have hreports := Sections.literals_reports hfit
  rw [Sections.requestFaults_eq] at hreports
  rw [Linkage.literals, hreports.error_iff, List.head?_map, List.head?_filter]

/-- **The literal array of a run can be written unless an entry names a request behind the first 65536,** and then
every index in it refers to the request that it was given out for. -/
theorem namesRequests_run (rs : List Registration) (hfit : (Linkage.empty.run rs).sections.CountsFit) :
    NamesRequests rs where
  refused := by
    simp only [literals_eq_error_iff hfit, Option.map_eq_some_iff]
    constructor
    · intro h
      obtain ⟨b, index, hindex, rfl⟩ := h
      exact ⟨index, List.mem_of_find?_eq_some hindex, by simpa using List.find?_some hindex⟩
    · intro h
      obtain ⟨index, hmem, hlarge⟩ := h
      have hsome : ((Linkage.empty.run rs).sections.references.find? (65535 < ·)).isSome := by
        rw [List.find?_isSome]
        exact ⟨index, hmem, by simpa using hlarge⟩
      exact ⟨_, _, Option.eq_some_of_isSome hsome, rfl⟩
  cause b := literals_eq_error_iff hfit
  unused specifiers hfit' b := by
    rw [literals_eq_error_iff hfit, literals_eq_error_iff hfit', run_append]
    obtain ⟨requests, hrun⟩ := run_requests (Linkage.empty.run rs) specifiers
    rw [hrun]
    rfl
  written literals h := writesReferences_of_literals h

/-- So many requests, the specifiers of which are numbers. -/
def numbered (n : Nat) : List Registration := ((List.range n).map Text.decimal).map .request

theorem numbered_succ (n : Nat) : numbered (n + 1) = numbered n ++ [.request (Text.decimal n)] := by
  simp [numbered, List.range_succ]

theorem requests_numbered (n : Nat) :
    (Linkage.empty.run (numbered n)).requests.toList = (List.range n).map Text.decimal := by
  induction n with
  | zero => rfl
  | succ n ih =>
    have hempty : (Text.decimal n).isEmpty = false := by
      rw [Bool.eq_false_iff, Ne, String.isEmpty_iff]
      exact Nat.repr_ne_empty
    have hattempt : (Linkage.empty.run (numbered n)).attempt (.request (Text.decimal n)) =
        { Linkage.empty.run (numbered n) with
          requests := ((Linkage.empty.run (numbered n)).requests.request (Text.decimal n)).2 } := by
      rw [attempt, register, request_eq_ok.mpr ⟨hempty, rfl, rfl⟩]
      rfl
    have hnew : (Linkage.empty.run (numbered n)).requests.indices[Text.decimal n]?.isSome = false := by
      rw [Bool.eq_false_iff]
      intro hsome
      obtain ⟨k, hk⟩ := Option.isSome_iff_exists.mp hsome
      have hmem := List.mem_of_getElem? ((inverse_run (numbered n) _ k).mp hk)
      rw [ih, List.mem_map] at hmem
      obtain ⟨m, hm, heq⟩ := hmem
      exact Nat.ne_of_lt (List.mem_range.mp hm) (Text.decimal_inj heq)
    have hrun : Linkage.empty.run (numbered (n + 1)) =
        (Linkage.empty.run (numbered n)).attempt (.request (Text.decimal n)) := by
      rw [numbered_succ, run_append]
      rfl
    rw [hrun, hattempt, RequestTable.toList_request, hnew, ih, List.range_succ, List.map_append]
    rfl

/-- A module with so many requests that exports all of one module. -/
def starOf (n index : Nat) : List Registration := numbered n ++ [.starExport ⟨index⟩]

theorem sections_starOf {n index : Nat} (h : index < n) :
    (Linkage.empty.run (starOf n index)).sections = ⟨(List.range n).map Text.decimal, [], [], [], [], [⟨index⟩]⟩ := by
  have hrequests := requests_numbered n
  obtain ⟨requests, hrun⟩ := run_requests Linkage.empty ((List.range n).map Text.decimal)
  rw [numbered, hrun] at hrequests
  have hsize : requests.size = n := by
    have hlength := congrArg List.length hrequests
    simpa [RequestTable.toList, RequestTable.size] using hlength
  have hattempt : (Linkage.mk requests .empty #[] .empty #[] #[]).attempt (.starExport ⟨index⟩) =
      Linkage.mk requests .empty #[] .empty #[] #[⟨index⟩] := by
    simp [attempt, register, addStarExport, requireRequest, require, hsize, h]
  have hrun' : Linkage.empty.run (starOf n index) = Linkage.mk requests .empty #[] .empty #[] #[⟨index⟩] := by
    rw [starOf, run_append, numbered, hrun]
    exact hattempt
  rw [hrun', Linkage.sections, hrequests]
  rfl

theorem countsFit_starOf {n index : Nat} (h : index < n) (hn : n < UInt32.size) :
    (Linkage.empty.run (starOf n index)).sections.CountsFit := by
  rw [sections_starOf h]
  constructor <;> simp [hn, UInt32.size]

/-- The last index that fits and the first that does not, and exports that pass on an import. -/
theorem namesRequests_run_starOf :
    (∃ literals, (Linkage.empty.run (starOf 65537 65535)).literals = .ok literals ∧
      WritesReferences (starOf 65537 65535) literals) ∧
    (Linkage.empty.run (starOf 65537 65536)).literals = .error (.requestTooLarge 65536) ∧
    ∃ literals, (Linkage.empty.run exportFirst).literals = .ok literals ∧ WritesReferences exportFirst literals := by
  have hlast := namesRequests_run (starOf 65537 65535) (countsFit_starOf (by decide) (by decide))
  have hfirst := namesRequests_run (starOf 65537 65536) (countsFit_starOf (by decide) (by decide))
  have hsmall := namesRequests_run exportFirst ⟨by decide +kernel, by decide +kernel, by decide +kernel,
    by decide +kernel, by decide +kernel, by decide +kernel⟩
  refine ⟨?_, ?_, ?_⟩
  · cases hliterals : (Linkage.empty.run (starOf 65537 65535)).literals with
    | ok literals => exact ⟨literals, rfl, hlast.written literals hliterals⟩
    | error b =>
      have hlarge := hlast.refused.mp ⟨b, hliterals⟩
      rw [sections_starOf (by decide)] at hlarge
      simp [Sections.references] at hlarge
  · rw [hfirst.cause, sections_starOf (by decide)]
    rfl
  · have hok : (Linkage.empty.run exportFirst).literals.isOk = true := by decide +kernel
    obtain ⟨literals, hliterals⟩ := exists_ok_of_isOk hok
    exact ⟨literals, hliterals, hsmall.written literals hliterals⟩

end Linkage

end ScriptAssembly
