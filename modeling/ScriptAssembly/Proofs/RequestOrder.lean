import ScriptAssembly.Linkage.WordIndexes
import ScriptAssembly.Proofs.InPlace
import ScriptAssembly.Proofs.Requests
/-
Specifiers are numbered in the order of their first use.

A table of requests is made of the requested specifiers and of nothing else
(`ofRequests`), so whatever other calls there are in a run, its table is that of
its requests (`requests_afterAll`). In such a table a specifier stands behind
the different ones that were requested before it (`index_request`), and as the
table grows at the end only, it stays there. Words make no difference as long as
there is a word for every specifier: each index is a position in the table, and so
it is below the number of specifiers (`afterAllInWords_eq`).
-/
namespace ScriptAssembly.Linkage

/-- How many different specifiers are requested before a specifier is requested for the first time. -/
def countEarlier (specifiers : List String) (s : String) : Nat := (specifiers.takeWhile (· != s)).eraseDups.length

/-- The first request counts; what comes behind a request is too late. -/
theorem countEarlier_append (before after : List String) (s : String) :
    countEarlier (before ++ s :: after) s = countEarlier (before ++ [s]) s := by
  simp only [countEarlier, List.takeWhile_append, List.takeWhile_cons, bne_self_eq_false, Bool.false_eq_true, if_false]

/-! ## Tables -/

namespace RequestTable

variable {specifiers : List String} {s : String}

/-- The table that requests of the given specifiers lead to. -/
def ofRequests (specifiers : List String) : RequestTable := specifiers.foldl (fun t s => (t.request s).2) empty

theorem ofRequests_concat (specifiers : List String) (s : String) :
    ofRequests (specifiers ++ [s]) = ((ofRequests specifiers).request s).2 := List.foldl_concat ..

theorem holds_ofRequests (specifiers : List String) : (ofRequests specifiers).Holds specifiers := by
  induction specifiers using List.reverseRecOn with
  | nil => exact holds_empty
  | append_singleton specifiers s ih =>
    rw [ofRequests_concat]
    exact ih.request s

theorem inverse_ofRequests (specifiers : List String) : (ofRequests specifiers).Inverse := by
  induction specifiers using List.reverseRecOn with
  | nil => exact inverse_empty
  | append_singleton specifiers s ih =>
    rw [ofRequests_concat]
    exact ih.request s

theorem size_ofRequests (specifiers : List String) : (ofRequests specifiers).size = specifiers.eraseDups.length := by
  rw [← (holds_ofRequests specifiers).toList]
  rfl

theorem specifier?_ofRequests (specifiers : List String) (index : Nat) :
    (ofRequests specifiers).specifier? index = specifiers.eraseDups[index]? := by
  rw [← (holds_ofRequests specifiers).toList, toList, Array.getElem?_toList, specifier?]

/-- A request is answered with the number of specifiers that came first. -/
theorem index_request (specifiers : List String) (s : String) :
    ((ofRequests specifiers).request s).1 = countEarlier (specifiers ++ [s]) s := by
  have hplace := (inverse_ofRequests specifiers).getElem?_request s
  rw [← ofRequests_concat, (holds_ofRequests _).toList] at hplace
  have hmem : s ∈ specifiers ++ [s] := List.mem_append_right _ List.mem_cons_self
  exact getElem?_eraseDups_inj hplace (getElem?_eraseDups_takeWhile hmem)

end RequestTable

/-! ## Calls -/

namespace Call

/-- The specifier that a call requests; the empty one is refused. -/
def specifier? : Call → Option String
  | request s => if s = "" then none else some s
  | addImport _ | addNamespaceImport _ | addLocalExport _ | addIndirectExport _ | addStarExport _ | addExport _
  | tryAddLocalExport _ | tryAddIndirectExport _ => none

/-- The specifiers that calls request, one after another. -/
def specifiers (calls : List Call) : List String := calls.filterMap specifier?

variable {l : Linkage} {before after calls : List Call} {s : String} {index : UInt32}

theorem specifiers_request (hs : s ≠ "") (before after : List Call) :
    specifiers (before ++ request s :: after) = specifiers before ++ s :: specifiers after := by
  simp [specifiers, specifier?, hs]

theorem specifiers_concat (calls : List Call) (c : Call) :
    specifiers (calls ++ [c]) = specifiers calls ++ c.specifier?.toList := by
  simp only [specifiers, List.filterMap_append]
  cases hc : c.specifier? <;> simp [hc]

theorem requests_attempt (l : Linkage) (c : Call) :
    (l.attempt c.registration).requests = c.specifier?.elim l.requests fun s => (l.requests.request s).2 := by
  cases c with
  | request s =>
    by_cases hs : s = ""
    · subst hs
      rfl
    · have hrequest : l.request s = .ok ((l.requests.request s).1, { l with requests := (l.requests.request s).2 }) :=
        request_eq_ok.mpr ⟨by simpa using hs, rfl, rfl⟩
      simp [attempt, registration, register, hrequest, specifier?, hs, Except.map]
  | addExport e => cases e <;> exact attempt_requests l rfl
  | addImport | addNamespaceImport | addLocalExport | addIndirectExport | addStarExport | tryAddLocalExport
  | tryAddIndirectExport => exact attempt_requests l rfl

theorem afterAll_concat (calls : List Call) (c : Call) :
    afterAll .empty (calls ++ [c]) = (afterAll .empty calls).attempt c.registration := by
  rw [afterAll_eq_run, afterAll_eq_run, List.map_append, run_append]
  rfl

/-- The other calls of a run leave no trace in its requests. -/
theorem requests_afterAll (calls : List Call) :
    (afterAll .empty calls).requests = .ofRequests (specifiers calls) := by
  induction calls using List.reverseRecOn with
  | nil => rfl
  | append_singleton calls c ih =>
    rw [afterAll_concat, requests_attempt, ih, specifiers_concat]
    cases c.specifier? with
    | none => simp
    | some s => exact (RequestTable.ofRequests_concat _ s).symm

/-! ## Words -/

/-- The index that a request is answered with is a position in a table that is small enough. -/
theorem toNat_index_request (hl : l.requests.Inverse) (hsize : l.requests.size < UInt32.size) (s : String) :
    (l.requests.request s).1.toUInt32.toNat = (l.requests.request s).1 := by
  refine UInt32.toNat_ofNat_of_lt ?_
  obtain ⟨index, hindex, hrequest⟩ | ⟨-, hrequest⟩ := l.requests.request_cases s
  · rw [hrequest]
    obtain ⟨hlt, -⟩ := List.getElem?_eq_some_iff.mp ((hl s index).mp hindex)
    exact Nat.lt_trans hlt hsize
  · rw [hrequest]
    exact hsize

theorem requestWord_settles (hsize : l.requests.size < UInt32.size) (s : String) :
    Settles l (fun _ => (l.requests.request s).1.toUInt32) (InPlace.requestWord s) (l.register (.request s)) := by
  have hword : l.requests.size.toUInt32.toNat = l.requests.size := UInt32.toNat_ofNat_of_lt hsize
  rw [InPlace.register_request]
  unfold InPlace.requestWord
  refine .require ?_
  unfold Settles RequestTable.request
  rw [run_get_bind]
  cases l.requests.indices[s]? with
  | some index => rfl
  | none =>
    simp only [hword]
    rfl

/-- Where there is a word for every index, calls make no difference between words and numbers. -/
theorem run_performInWords (hl : l.Indexed) (hinverse : l.requests.Inverse) (hsize : l.requests.size < UInt32.size)
    (c : Call) : c.performInWords.run l = c.perform.run l := by
  cases c with
  | request s =>
    have hwords := (requestWord_settles hsize s).map fun index => Reply.index index.toNat
    simp only [toNat_index_request hinverse hsize s] at hwords
    exact hwords.trans (perform_settles hl (request s)).symm
  | addImport | addNamespaceImport | addLocalExport | addIndirectExport | addStarExport | addExport
  | tryAddLocalExport | tryAddIndirectExport => rfl

theorem indexed_afterAll (calls : List Call) : (afterAll .empty calls).Indexed := by
  rw [afterAll_eq_run]
  exact (Reads.empty.run _).indexed

theorem inverse_afterAll (calls : List Call) : (afterAll .empty calls).requests.Inverse := by
  rw [requests_afterAll]
  exact RequestTable.inverse_ofRequests _

theorem size_requests (calls : List Call) :
    (afterAll .empty calls).requests.size = (specifiers calls).eraseDups.length := by
  rw [requests_afterAll, RequestTable.size_ofRequests]

/-- The first calls of a run request no more specifiers than the run. -/
theorem few_before (h : (specifiers (before ++ after)).eraseDups.length < UInt32.size) :
    (specifiers before).eraseDups.length < UInt32.size := by
  rw [specifiers, List.filterMap_append] at h
  exact Nat.lt_of_le_of_lt (prefix_eraseDups_append _ _).length_le h

theorem run_performInWords_afterAll (hcalls : (specifiers calls).eraseDups.length < UInt32.size) (c : Call) :
    c.performInWords.run (afterAll .empty calls) = c.perform.run (afterAll .empty calls) :=
  run_performInWords (indexed_afterAll calls) (inverse_afterAll calls) (by rwa [size_requests]) c

theorem afterInWords_eq {c : Call} (h : c.performInWords.run l = c.perform.run l) :
    c.afterInWords l = c.after l := by
  unfold afterInWords
  split
  next hrun => rw [Call.after, ← h, hrun]
  next hrun => rw [Call.after, ← h, hrun]

/-- A run of fewer than 2^32 specifiers leads to the same linkage in words as in numbers. -/
theorem afterAllInWords_eq (hcalls : (specifiers calls).eraseDups.length < UInt32.size) :
    afterAllInWords .empty calls = afterAll .empty calls := by
  induction calls using List.reverseRecOn with
  | nil => rfl
  | append_singleton calls c ih =>
    -- In front of the last call there is a word for every index as well.
    have hbefore := few_before hcalls
    have hwords : afterAllInWords .empty (calls ++ [c]) = afterInWords (afterAllInWords .empty calls) c :=
      List.foldl_concat ..
    have hnumbers : afterAll .empty (calls ++ [c]) = after (afterAll .empty calls) c := List.foldl_concat ..
    rw [hwords, hnumbers, ih hbefore, afterInWords_eq (run_performInWords_afterAll hbefore c)]

theorem toList_requests (hcalls : (specifiers calls).eraseDups.length < UInt32.size) :
    (afterAllInWords .empty calls).requests.toList = (specifiers calls).eraseDups := by
  rw [afterAllInWords_eq hcalls, requests_afterAll]
  exact (RequestTable.holds_ofRequests _).toList

/-! ## Answers -/

/-- A request that is answered with an index, behind the given calls. -/
def AnsweredAfter (before : List Call) (s : String) (index : UInt32) : Prop :=
  ∃ l', (request s).performInWords.run (afterAllInWords .empty before) = .ok (.index index.toNat) l'

theorem run_request (hbefore : (specifiers before).eraseDups.length < UInt32.size) (s : String) :
    (request s).performInWords.run (afterAllInWords .empty before) =
      settled (afterAll .empty before) (fun _ => .index (countEarlier (specifiers before ++ [s]) s))
        ((afterAll .empty before).register (.request s)) := by
  have hindex : ((afterAll .empty before).requests.request s).1 = countEarlier (specifiers before ++ [s]) s := by
    rw [requests_afterAll, RequestTable.index_request]
  rw [afterAllInWords_eq hbefore, run_performInWords_afterAll hbefore, ← hindex]
  exact perform_settles (indexed_afterAll before) (request s)

/-- Every request but that of the empty specifier is answered, with the number of specifiers that came first. -/
theorem answeredAfter_iff (hbefore : (specifiers before).eraseDups.length < UInt32.size) :
    AnsweredAfter before s index ↔ s ≠ "" ∧ index.toNat = countEarlier (specifiers before ++ [s]) s := by
  rw [AnsweredAfter, run_request hbefore, InPlace.register_request]
  by_cases hs : s = ""
  · subst hs
    simp [settled, require, bind, Except.bind]
  · have hvalid : require (!s.isEmpty) .emptySpecifier = .ok () := by simp [require, hs]
    rw [hvalid]
    constructor
    · rintro ⟨l', hrun⟩
      injection hrun with hreply
      injection hreply with hindex
      exact ⟨hs, hindex.symm⟩
    · rintro ⟨-, hindex⟩
      rw [hindex]
      exact ⟨_, rfl⟩

/-- What is called behind a request does not change its answer. -/
theorem AnsweredAfter.index_eq (hbefore : (specifiers before).eraseDups.length < UInt32.size)
    (h : AnsweredAfter before s index) (after : List Call) :
    index.toNat = countEarlier (specifiers (before ++ request s :: after)) s := by
  obtain ⟨hs, hindex⟩ := (answeredAfter_iff hbefore).mp h
  rw [hindex, specifiers_request hs]
  exact (countEarlier_append ..).symm

theorem AnsweredAfter.getElem? (hbefore : (specifiers before).eraseDups.length < UInt32.size)
    (h : AnsweredAfter before s index) (after : List Call) :
    (specifiers (before ++ request s :: after)).eraseDups[index.toNat]? = some s := by
  obtain ⟨hs, -⟩ := (answeredAfter_iff hbefore).mp h
  have hmem : s ∈ specifiers (before ++ request s :: after) := by simp [specifiers_request hs]
  rw [h.index_eq hbefore after]
  exact getElem?_eraseDups_takeWhile hmem

theorem exists_answeredAfter (hbefore : (specifiers before).eraseDups.length < UInt32.size) (hs : s ≠ "") :
    ∃ index, AnsweredAfter before s index := by
  refine ⟨((afterAll .empty before).requests.request s).1.toUInt32, (answeredAfter_iff hbefore).mpr ⟨hs, ?_⟩⟩
  have hsize : (afterAll .empty before).requests.size < UInt32.size := by rwa [size_requests]
  rw [toNat_index_request (inverse_afterAll before) hsize, requests_afterAll, RequestTable.index_request]

/-! ## Runs -/

/-- A run whose requests are numbered in the order in which specifiers are first used. -/
structure NumbersRequests (calls : List Call) : Prop where
  /-- Each specifier is listed once, where it is first requested. -/
  listed : (afterAllInWords .empty calls).requests.toList = (specifiers calls).eraseDups
  distinct : (afterAllInWords .empty calls).requests.toList.Nodup
  answered : ∀ before s after, calls = before ++ request s :: after → s ≠ "" →
    ∃ index, AnsweredAfter before s index ∧ index.toNat = countEarlier (specifiers calls) s
  same : ∀ before s after index before' s' after' index', calls = before ++ request s :: after →
    calls = before' ++ request s' :: after' → AnsweredAfter before s index → AnsweredAfter before' s' index' →
    (index = index' ↔ s = s')
  /-- An index leads to its specifier after the request and after whatever is called later. -/
  permanent : ∀ before s later rest index, calls = before ++ request s :: later ++ rest → AnsweredAfter before s index →
    (afterAllInWords .empty (before ++ request s :: later)).requests.specifier? index.toNat = some s
  /-- Other calls, and the request of the empty specifier, leave the table as it is. -/
  untouched : ∀ before c after, calls = before ++ c :: after → c.specifier? = none →
    (afterAllInWords .empty (before ++ [c])).requests = (afterAllInWords .empty before).requests
  /-- Without a limit to indexes, the run would lead to the same linkage. -/
  unlimited : afterAllInWords .empty calls = afterAll .empty calls

/-- **Specifiers are numbered in the order of their first use**, and their numbers are permanent. -/
theorem numbersRequests_afterAll (calls : List Call) (h : (specifiers calls).eraseDups.length < 4294967296) :
    NumbersRequests calls where
  listed := toList_requests h
  distinct := by
    rw [toList_requests h]
    exact eraseDups_nodup _
  answered before s after hcalls hs := by
    subst hcalls
    obtain ⟨index, hanswer⟩ := exists_answeredAfter (few_before h) hs
    exact ⟨index, hanswer, hanswer.index_eq (few_before h) after⟩
  same before s after index before' s' after' index' hcalls hcalls' hanswer hanswer' := by
    have hplace := hanswer.getElem? (few_before (hcalls ▸ h)) after
    have hplace' := hanswer'.getElem? (few_before (hcalls' ▸ h)) after'
    rw [← hcalls] at hplace
    rw [← hcalls'] at hplace'
    constructor
    · rintro rfl
      exact Option.some.inj (hplace.symm.trans hplace')
    · rintro rfl
      exact UInt32.toNat_inj.mp (getElem?_eraseDups_inj hplace hplace')
  permanent before s later rest index hcalls hanswer := by
    have hlater := few_before (hcalls ▸ h)
    rw [afterAllInWords_eq hlater, requests_afterAll, RequestTable.specifier?_ofRequests]
    exact hanswer.getElem? (few_before hlater) later
  untouched before c after hcalls hc := by
    have hsnoc : (specifiers (before ++ [c])).eraseDups.length < UInt32.size := by
      rw [hcalls, List.append_cons] at h
      exact few_before h
    rw [afterAllInWords_eq hsnoc, afterAllInWords_eq (few_before hsnoc), requests_afterAll, requests_afterAll,
      specifiers_concat, hc, Option.toList_none, List.append_nil]
  unlimited := afterAllInWords_eq h

/-- Five requests, one of them of the empty specifier and two of specifiers that were requested before. -/
def mixedCalls : List Call :=
  [request "m", addImport ⟨0, "x", "x"⟩, request "n", request "", addLocalExport ⟨"e", "x"⟩, request "m",
    addStarExport ⟨7⟩, request "n"]

/-- The second request of a specifier has the answer of the first. -/
theorem numbersRequests_afterAll_mixed : (specifiers mixedCalls).eraseDups.length < 4294967296 ∧
    (afterAllInWords .empty mixedCalls).requests.toList = ["m", "n"] ∧
    ∃ m n, AnsweredAfter [] "m" m ∧ AnsweredAfter (mixedCalls.take 2) "n" n ∧ AnsweredAfter (mixedCalls.take 5) "m" m ∧
      AnsweredAfter (mixedCalls.take 7) "n" n ∧ m ≠ n := by
  have hfew : (specifiers mixedCalls).eraseDups.length < 4294967296 := by decide +kernel
  have hrun := numbersRequests_afterAll mixedCalls hfew
  obtain ⟨m, hm, -⟩ := hrun.answered [] "m" (mixedCalls.drop 1) rfl (by decide)
  obtain ⟨n, hn, -⟩ := hrun.answered (mixedCalls.take 2) "n" (mixedCalls.drop 3) rfl (by decide)
  obtain ⟨m', hm', -⟩ := hrun.answered (mixedCalls.take 5) "m" (mixedCalls.drop 6) rfl (by decide)
  obtain ⟨n', hn', -⟩ := hrun.answered (mixedCalls.take 7) "n" (mixedCalls.drop 8) rfl (by decide)
  obtain rfl := (hrun.same _ _ _ _ _ _ _ _ rfl rfl hm hm').mpr rfl
  obtain rfl := (hrun.same _ _ _ _ _ _ _ _ rfl rfl hn hn').mpr rfl
  refine ⟨hfew, hrun.listed.trans (by decide +kernel), m, n, hm, hn, hm', hn', ?_⟩
  rw [Ne, hrun.same _ _ _ _ _ _ _ _ rfl rfl hm hn]
  decide

end Call

end ScriptAssembly.Linkage
