import ScriptAssembly.Program.Sink
import ScriptAssembly.Proofs.Calls
import ScriptAssembly.Proofs.Interleaving
import ScriptAssembly.Proofs.ListingLines
/-
What a listing shows does not depend on how its program came about.

The tables of a program are finite maps, so runs that add the same in
whatever order end in one and the same program (`finish_eq_of_perm`). Still a
table may give its functions and records in any order. They are sorted by
name before they are shown, and this leaves a single order as long as no two
have the same name. That is so because everything is held under its own name
(`KeyedByName`): records are sorted by the name that they carry, not by the
one that they are held under.

What the listing shows in that order is told of the text itself (`Shows`): a
block for each record and each function, and a line with its header, which is
found once, as no other line looks like one.
-/
namespace ScriptAssembly

/-! ## Sorting by name -/

section Sorting

variable {α : Type} {name : α → String} {xs ys : List α}

theorem pairwise_lt_mergeSort (h : (xs.map name).Nodup) :
    (xs.mergeSort fun a b => name a ≤ name b).Pairwise fun a b => name a < name b := by
  have hle : (xs.mergeSort fun a b => name a ≤ name b).Pairwise fun a b => name a ≤ name b := by
    have htrans : ∀ a b c : α, decide (name a ≤ name b) = true → decide (name b ≤ name c) = true →
        decide (name a ≤ name c) = true := by
      simpa only [decide_eq_true_eq] using fun _ _ _ => String.le_trans
    have htotal : ∀ a b : α, (decide (name a ≤ name b) || decide (name b ≤ name a)) = true := by
      simpa only [Bool.or_eq_true, decide_eq_true_eq] using fun _ _ => String.le_total _ _
    simpa only [decide_eq_true_eq] using List.pairwise_mergeSort htrans htotal xs
  have hne : (xs.mergeSort fun a b => name a ≤ name b).Pairwise fun a b => name a ≠ name b := by
    rw [← List.pairwise_map (R := (· ≠ ·))]
    exact ((List.mergeSort_perm xs _).map name).nodup_iff.mpr h
  exact (hle.and hne).imp fun hab => Std.lt_of_le_of_ne hab.1 hab.2

theorem mergeSort_eq_of_perm (hperm : xs.Perm ys) (h : (xs.map name).Nodup) :
    (xs.mergeSort fun a b => name a ≤ name b) = ys.mergeSort fun a b => name a ≤ name b := by
  have hlt := pairwise_lt_mergeSort ((hperm.map name).nodup_iff.mp h)
  refine List.Perm.eq_of_pairwise (fun _ _ _ _ hab hba => absurd hba (String.lt_asymm hab)) (pairwise_lt_mergeSort h)
    hlt ?_
  exact ((List.mergeSort_perm xs _).trans hperm).trans (List.mergeSort_perm ys _).symm

end Sorting

/-! ## Tables in any order -/

theorem Listing.ofTables_eq (debug : Bool) (literalArrays : List (String × List Literal))
    (records : List (String × Program.Record)) (functions : List (String × Function)) (strings : List String) :
    ofTables debug literalArrays records functions strings =
      inOrder debug literalArrays ((records.map Prod.snd).mergeSort fun a b => a.name ≤ b.name)
        ((functions.mergeSort fun a b => a.1 ≤ b.1).map Prod.snd) strings := by
  unfold ofTables inOrder
  rw [List.map_map]
  rfl

namespace Program

variable {p : Program}

/-- A program whose functions and records are held under their own names. -/
structure KeyedByName (p : Program) : Prop where
  functions : ∀ (name : String) (f : Function), p.functions[name]? = some f → f.name = name
  records : ∀ (name : String) (r : Record), p.records[name]? = some r → r.name = name

/-- The functions and the records of a program, each of them once and by increasing names. -/
structure Arranges (p : Program) (functions : List Function) (records : List Record) : Prop where
  functionPerm : functions.Perm (p.functions.toList.map Prod.snd)
  functionNames : functions.Pairwise (·.name < ·.name)
  recordPerm : records.Perm (p.records.toList.map Prod.snd)
  recordNames : records.Pairwise (·.name < ·.name)

/-- A program whose listing is the given text, in whatever order its tables give the functions and records. -/
def ListedAs (p : Program) (debug : Bool) (text : String) : Prop :=
  ∀ records functions, records.Perm p.records.toList → functions.Perm p.functions.toList →
    Listing.ofTables debug p.literalArrays.toList records functions p.strings.toList = text

/-- A text that shows functions and records of a program: a block for each, in this order, and where names take one
line, no line that looks like a header but is none. -/
structure Shows (p : Program) (debug : Bool) (functions : List Function) (records : List Record) (text : String) :
    Prop where
  inOrder : text = Listing.inOrder debug p.literalArrays.toList records functions p.strings.toList
  blocks : Listing.HasBlocks records functions text
  headers : p.Plain → (Text.lines text).filter Text.isDotted = Listing.headers records functions

theorem Arranges.shows {functions : List Function} {records : List Record} (h : p.Arranges functions records)
    (debug : Bool) :
    p.Shows debug functions records
      (Listing.inOrder debug p.literalArrays.toList records functions p.strings.toList) where
  inOrder := rfl
  blocks := Listing.hasBlocks_inOrder
  headers hplain := by
    refine (Listing.marks_inOrder hplain.keys hplain.literals (fun r hr => ?_) fun f hf => ?_).lines_eq
    · obtain ⟨e, he, rfl⟩ := List.mem_map.mp (h.recordPerm.mem_iff.mp hr)
      exact hplain.records e he
    · obtain ⟨e, he, rfl⟩ := List.mem_map.mp (h.functionPerm.mem_iff.mp hf)
      exact hplain.functions e he

theorem nodup_names {α : Type} {m : Std.ExtTreeMap String α} {name : α → String}
    (h : ∀ (key : String) (value : α), m[key]? = some value → name value = key) :
    ((m.toList.map Prod.snd).map name).Nodup := by
  have hkeys : (m.toList.map Prod.snd).map name = m.toList.map Prod.fst := by
    rw [List.map_map]
    exact List.map_congr_left fun e he => h _ _ (Std.ExtTreeMap.mem_toList_iff_getElem?_eq_some.mp he)
  rw [hkeys]
  exact nodup_keys_toList m

/-- Sorting puts the functions and records of a program in an order that depends on the program only. -/
theorem KeyedByName.listed (h : p.KeyedByName) : ∃ functions records, p.Arranges functions records ∧
    ∀ debug, p.ListedAs debug (Listing.inOrder debug p.literalArrays.toList records functions p.strings.toList) := by
  have hkeys := nodup_keys_toList p.functions
  have hnames := nodup_names h.records
  refine ⟨(p.functions.toList.mergeSort fun a b => a.1 ≤ b.1).map Prod.snd,
    (p.records.toList.map Prod.snd).mergeSort fun a b => a.name ≤ b.name,
    ⟨(List.mergeSort_perm _ _).map _, ?_, List.mergeSort_perm _ _, pairwise_lt_mergeSort hnames⟩, ?_⟩
  · -- Functions are sorted by their keys, which are their names.
    have hname : ∀ e ∈ p.functions.toList, e.2.name = e.1 := fun e he =>
      h.functions _ _ (Std.ExtTreeMap.mem_toList_iff_getElem?_eq_some.mp he)
    rw [List.pairwise_map]
    refine (pairwise_lt_mergeSort hkeys).imp_of_mem fun {a b} ha hb hab => ?_
    rwa [hname a ((List.mergeSort_perm _ _).mem_iff.mp ha), hname b ((List.mergeSort_perm _ _).mem_iff.mp hb)]
  · intro debug records functions hr hf
    have hfunctions := mergeSort_eq_of_perm hf ((hf.map Prod.fst).nodup_iff.mpr hkeys)
    have hvalues := hr.map Prod.snd
    rw [Listing.ofTables_eq, hfunctions, mergeSort_eq_of_perm hvalues ((hvalues.map _).nodup_iff.mpr hnames)]

/-! ## Equal programs -/

theorem Assembled.eq_of_perm {p' : Program} {recordName : String} {emissions emissions' : List Emission}
    {record : Option (Bool × List Literal)} (h : p.Assembled recordName emissions record)
    (h' : p'.Assembled recordName emissions' record) (hperm : emissions.Perm emissions') : p = p' := by
  have hfunctions : p.functions = p'.functions := by
    refine Std.ExtTreeMap.ext_getElem? fun name => Option.ext fun f => ?_
    simp only [h.functions, h'.functions, hperm.mem_iff]
  have hrecords : p.records = p'.records :=
    Std.ExtTreeMap.ext_getElem? fun name => (h.records name).trans (h'.records name).symm
  have harrays : p.literalArrays = p'.literalArrays := by
    refine Std.ExtTreeMap.ext_getElem? fun key => Option.ext fun literals => ?_
    simp only [h.literalArrays, h'.literalArrays, hperm.mem_iff]
  have hstrings : p.strings = p'.strings := by
    refine Std.ExtTreeSet.ext_mem fun s => ?_
    simp only [h.strings, h'.strings, hperm.mem_iff]
  cases p
  cases p'
  simp only [Program.mk.injEq]
  exact ⟨hfunctions, hrecords, harrays, hstrings⟩

/-- The mark of a CommonJS module and the main record have the names that they are held under. -/
theorem Assembled.keyedByName {recordName : String} {emissions : List Emission} {record : Option (Bool × List Literal)}
    (h : p.Assembled recordName emissions record) : p.KeyedByName where
  functions name f hf := by
    obtain ⟨-, -, -, hname⟩ := (h.functions name f).mp hf
    exact hname
  records name r hr := by
    rw [h.records] at hr
    split at hr
    next hmark => exact Option.some.inj hr ▸ hmark.1.symm
    next =>
      split at hr
      next hmain =>
        rw [hmain, ← Option.some.inj hr]
        cases record <;> rfl
      next => cases hr

end Program

namespace Builder

variable {o o' : Options} {calls calls' : List Call}

theorem accepted_eq_self (h : (calls.map Call.slot).Nodup) : accepted calls = calls := by
  induction calls with
  | nil => rfl
  | cons c calls ih =>
    rw [List.map_cons, List.nodup_cons] at h
    rw [accepted, ih h.2, List.filter_eq_self.mpr]
    intro d hd
    rw [bne_iff_ne]
    exact fun heq => h.1 (heq ▸ List.mem_map_of_mem hd)

theorem assembled_finish (o : Options) (h : (calls.map Call.slot).Nodup) :
    ((Builder.start o).run calls).finish.Assembled o.recordName (calls.filterMap Call.emission?)
      (calls.findSome? Call.record?) := by
  have hholds := holds_run o calls
  rw [accepted_eq_self h] at hholds
  exact hholds.finish h

theorem perm_functions_finish (o : Options) (h : (calls.map Call.slot).Nodup) :
    (((Builder.start o).run calls).finish.functions.toList.map Prod.snd).Perm
      ((calls.filterMap Call.emission?).map Emission.function) := by
  have hperm := (holds_run o calls).functions.perm_toList.map Prod.snd
  rwa [accepted_eq_self h, List.map_map, ← (finish_tables _).1] at hperm

theorem finish_eq_of_perm (hname : o.recordName = o'.recordName) (hperm : calls.Perm calls')
    (hdistinct : (calls.map Call.slot).Nodup) :
    ((Builder.start o).run calls).finish = ((Builder.start o').run calls').finish := by
  have hdistinct' := (hperm.map Call.slot).nodup_iff.mp hdistinct
  have hrecord : calls.findSome? Call.record? = calls'.findSome? Call.record? := by
    refine Option.ext fun r => ?_
    simp only [findSome?_record? hdistinct, findSome?_record? hdistinct', hperm.mem_iff]
  have h := assembled_finish o hdistinct
  rw [hname, hrecord] at h
  exact h.eq_of_perm (assembled_finish o' hdistinct') (hperm.filterMap _)

/-- **A listing does not depend on any order:** neither on that of the calls nor on those in which the tables of the
two programs give their functions and records. It shows every function that was added and every record once, by
increasing names, with a header for each. -/
theorem listing_finish_of_perm {o o' : Options} {calls calls' : List Call} (hname : o.recordName = o'.recordName)
    (hperm : calls.Perm calls') (hdistinct : (calls.map Call.slot).Nodup) :
    ∃ functions records, functions.Perm ((calls.filterMap Call.emission?).map Emission.function) ∧
      ((Builder.start o).run calls).finish.Arranges functions records ∧
      ((Builder.start o').run calls').finish.Arranges functions records ∧
      ∀ debug, ∃ text, ((Builder.start o).run calls).finish.Shows debug functions records text ∧
        ((Builder.start o).run calls).finish.ListedAs debug text ∧
        ((Builder.start o').run calls').finish.ListedAs debug text := by
  rw [← finish_eq_of_perm hname hperm hdistinct]
  obtain ⟨functions, records, harranged, hlisted⟩ := (assembled_finish o hdistinct).keyedByName.listed
  exact ⟨functions, records, harranged.functionPerm.trans (perm_functions_finish o hdistinct), harranged, harranged,
    fun debug => ⟨_, harranged.shows debug, hlisted debug, hlisted debug⟩⟩

/-- A call that adds the function of `arrayDraft`. -/
def arrayCall (name : String) (h : ((Build.arrayDraft name).emit false).toOption.isSome = true) : Call :=
  .function (((Build.arrayDraft name).emit false).toOption.get h) ⟨false, _, eq_ok_get h⟩

theorem slot_arrayCall {name : String} (h : ((Build.arrayDraft name).emit false).toOption.isSome = true) :
    (arrayCall name h).slot = some name :=
  congrArg some (Emission.name_of_emit (eq_ok_get h))

/-- Two functions with an array each and a module record, in two orders. -/
theorem listing_finish_of_perm_arrays : ∃ f g : Call, f.slot = some "f" ∧ g.slot = some "g" ∧
    ∀ debug, ((Builder.start { recordName := "app" }).run [f, .moduleRecord true [.integer 0], g]).finish.listing debug =
      ((Builder.start { debug := true, commonjs := true, recordName := "app" }).run
        [g, f, .moduleRecord true [.integer 0]]).finish.listing debug ∧
      ∃ functions records, functions.Perm (([f, g].filterMap Call.emission?).map Emission.function) ∧
        functions.Pairwise (·.name < ·.name) ∧
        (Text.lines (((Builder.start { recordName := "app" }).run
          [f, .moduleRecord true [.integer 0], g]).finish.listing debug)).filter Text.isDotted =
            Listing.headers records functions := by
  refine ⟨arrayCall "f" (by decide +kernel), arrayCall "g" (by decide +kernel), slot_arrayCall _, slot_arrayCall _,
    fun debug => ?_⟩
  have hname : ({ recordName := "app" } : Options).recordName =
      ({ debug := true, commonjs := true, recordName := "app" } : Options).recordName := rfl
  have hperm : [arrayCall "f" (by decide +kernel), .moduleRecord true [.integer 0],
      arrayCall "g" (by decide +kernel)].Perm [arrayCall "g" (by decide +kernel), arrayCall "f" (by decide +kernel),
        .moduleRecord true [.integer 0]] :=
    ((List.Perm.swap _ _ _).cons _).trans (.swap _ _ _)
  obtain ⟨functions, records, hfunctions, harranged, -, hlisted⟩ := listing_finish_of_perm hname hperm
    (by decide +kernel)
  obtain ⟨text, hshows, htext, htext'⟩ := hlisted debug
  have hlisting := htext _ _ (.refl _) (.refl _)
  refine ⟨hlisting.trans (htext' _ _ (.refl _) (.refl _)).symm, functions, records, hfunctions,
    harranged.functionNames, ?_⟩
  exact (congrArg (fun s => (Text.lines s).filter Text.isDotted) hlisting).trans (hshows.headers (by decide +kernel))

end Builder

end ScriptAssembly
