import ScriptAssembly.Linkage.Sections
import ScriptAssembly.Proofs.Calls
/-
The main record of a finished program leads to the module record.

A builder tells of the module record in its main record, whose name is free
to choose. Finishing a CommonJS module puts in one more record, under a name
that is not free to choose, and whatever has this name gives way. So the main
record keeps its link unless it has that name itself
(`linksModule_finish_iff`), and there the link is lost (`mainRecord_lost`):
the array of the module record is there and nothing leads to it.
-/
namespace ScriptAssembly

/-- A program whose main record leads to the array of the module record and has the flag for CommonJS. -/
structure Program.LinksModule (p : Program) (recordName : String) (commonjs : Bool) (literals : List Literal) : Prop where
  main : ∃ main, p.record? recordName = some main ∧
    main.field? "moduleRecordIdx" = some (.literalArray (moduleRecordKey recordName)) ∧
    main.field? "isCommonjs" = some (.u8 (if commonjs then 1 else 0))
  array : p.literalArray? (moduleRecordKey recordName) = some literals

/-- A program with the record that marks a CommonJS module. -/
def Program.MarksCommonjs (p : Program) : Prop :=
  ∃ mark, p.record? "_CommonJsRecord" = some mark ∧ mark.field? "isCommonJs" = some (.u8 1)

/-- The mark of a CommonJS module tells of no module record. -/
theorem Program.not_linksModule_of_mark {p : Program} {recordName : String} {commonjs : Bool} {literals : List Literal}
    (h : p.record? recordName = some Builder.commonjsRecord) : ¬ p.LinksModule recordName commonjs literals := by
  intro hlinks
  obtain ⟨main, hmain, hfield, -⟩ := hlinks.main
  obtain rfl : Builder.commonjsRecord = main := Option.some.inj (h.symm.trans hmain)
  have hnone : Builder.commonjsRecord.field? "moduleRecordIdx" = none := by decide
  rw [hnone] at hfield
  cases hfield

namespace Builder

variable {o : Options} {emissions : List Emission} {commonjs : Bool} {literals : List Literal} {p : Program}

theorem linksModule_of_assembled (h : p.Assembled o.recordName emissions (some (commonjs, literals)))
    (hfree : ¬ (commonjs = true ∧ o.recordName = "_CommonJsRecord")) :
    p.LinksModule o.recordName commonjs literals where
  main := by
    refine ⟨mainRecordWith o.recordName (some (commonjs, literals)), (h.records o.recordName).trans ?_, rfl, rfl⟩
    have hkept : ¬ (o.recordName = "_CommonJsRecord" ∧ (some (commonjs, literals)).map Prod.fst = some true) :=
      fun hlost => hfree ⟨Option.some.inj hlost.2, hlost.1⟩
    rw [if_neg hkept, if_pos rfl]
  array := (h.literalArrays _ _).mpr (.inr ⟨commonjs, rfl, rfl⟩)

theorem record?_of_commonjs (h : p.Assembled o.recordName emissions (some (true, literals))) :
    p.record? "_CommonJsRecord" = some commonjsRecord :=
  (h.records "_CommonJsRecord").trans (if_pos ⟨rfl, rfl⟩)

/-- **The main record leads to the module record,** and has the flag that came with it, unless it has the name of
the record that marks a CommonJS module and is replaced by it. The mark itself is never missing. -/
theorem linksModule_finish_iff (o : Options) {calls : List Call} {commonjs : Bool} {literals : List Literal}
    (h : calls.findSome? Call.record? = some (commonjs, literals)) :
    (((Builder.start o).run calls).finish.LinksModule o.recordName commonjs literals ↔
      ¬ (commonjs = true ∧ o.recordName = "_CommonJsRecord")) ∧
    (commonjs = true → ((Builder.start o).run calls).finish.MarksCommonjs) := by
  have hassembled := (holds_run o calls).finish (accepted_distinct calls)
  rw [← moduleRecord?, moduleRecord?_eq, h] at hassembled
  refine ⟨⟨fun hlinks hlost => ?_, linksModule_of_assembled hassembled⟩, fun hflag => ?_⟩
  · obtain ⟨rfl, hname⟩ := hlost
    have hmark := record?_of_commonjs hassembled
    rw [← hname] at hmark
    exact Program.not_linksModule_of_mark hmark hlinks
  · subst hflag
    exact ⟨commonjsRecord, record?_of_commonjs hassembled, rfl⟩

/-- The literal array of a module that neither imports nor exports. -/
def emptyModule : List Literal := List.replicate 6 (.integer 0)

/-- The flag is that of the first registration, and a main record of any name is safe where it is not set. -/
theorem linksModule_finish_iff_reserved :
    ((Builder.start { commonjs := true, recordName := "app" }).run
        [.moduleRecord true emptyModule, .moduleRecord false []]).finish.LinksModule "app" true emptyModule ∧
    ((Builder.start { commonjs := true, recordName := "app" }).run
        [.moduleRecord true emptyModule, .moduleRecord false []]).finish.MarksCommonjs ∧
    ((Builder.start { recordName := "_CommonJsRecord" }).run
        [.moduleRecord false emptyModule, .moduleRecord true []]).finish.LinksModule "_CommonJsRecord" false emptyModule := by
  have htrue : [Call.moduleRecord true emptyModule, .moduleRecord false []].findSome? Call.record? =
      some (true, emptyModule) := rfl
  have hfalse : [Call.moduleRecord false emptyModule, .moduleRecord true []].findSome? Call.record? =
      some (false, emptyModule) := rfl
  have happ := linksModule_finish_iff { commonjs := true, recordName := "app" } htrue
  have hreserved := linksModule_finish_iff { recordName := "_CommonJsRecord" } hfalse
  exact ⟨happ.1.mpr (by decide), happ.2 rfl, hreserved.1.mpr (by decide)⟩

/-- A CommonJS module whose main record has the name of the mark: no record leads to its module record. -/
theorem mainRecord_lost :
    Linkage.empty.literals = .ok emptyModule ∧
    ((Builder.start { commonjs := true, recordName := "_CommonJsRecord" }).run
        [.moduleRecord true emptyModule]).finish.record? "_CommonJsRecord" =
      some ⟨"_CommonJsRecord", [⟨"isCommonJs", .u8 1⟩]⟩ ∧
    ¬ ((Builder.start { commonjs := true, recordName := "_CommonJsRecord" }).run
        [.moduleRecord true emptyModule]).finish.LinksModule "_CommonJsRecord" true emptyModule := by
  have hmark : ((Builder.start { commonjs := true, recordName := "_CommonJsRecord" }).run
      [.moduleRecord true emptyModule]).finish.record? "_CommonJsRecord" = some commonjsRecord := by decide +kernel
  exact ⟨by decide +kernel, hmark, Program.not_linksModule_of_mark hmark⟩

end Builder

end ScriptAssembly
