import ScriptAssembly.Proofs.Acceptance
import ScriptAssembly.Proofs.DebugInfo
import ScriptAssembly.Proofs.Linked
import ScriptAssembly.Proofs.Listing
/-
Debug information is the same thing to a build and to a listing.

To leave it out of a program is one function, `Program.bare`. A builder does
not look at it, so putting together emissions without their debug information
gives the program without it (`finish_bare`); and these are the emissions of a
build that asks for none. A listing that hides debug information does not look
at it either, and where there is none there is nothing to hide
(`Program.listing_bare`). The two meet in the program of a release build.
-/
namespace ScriptAssembly

/-! ## Leaving out debug information -/

/-- A function without debug information. -/
def Function.bare (f : Function) : Function :=
  { f with
    instructions := f.instructions.map fun i => { i with position := none }
    locals := []
    source := none }

/-- A program without debug information. -/
def Program.bare (p : Program) : Program := { p with functions := p.functions.map fun _ f => f.bare }

/-- A builder whose program has no debug information. -/
def Builder.bare (b : Builder) : Builder := { b with program := b.program.bare }

theorem Emission.function_bare (e : Emission) : e.bare.function = e.function.bare := rfl

/-! ## Building -/

namespace Builder

theorem start_bare (o : Options) : (Builder.start o).bare = .start o := by
  have hempty : (∅ : Std.ExtTreeMap String Function).map (fun _ f => f.bare) = ∅ := by
    ext1 name
    simp
  simp only [bare, Program.bare, start, Program.empty, hempty]

theorem putFunction_bare (b : Builder) (e : Emission) : (b.putFunction e).bare = b.bare.putFunction e.bare := by
  have hfunctions : (b.program.functions.insert e.function.name e.function).map (fun _ f => f.bare) =
      (b.program.functions.map fun _ f => f.bare).insert e.function.name e.function.bare := by
    ext1 name
    simp only [Std.ExtTreeMap.getElem?_map, Std.ExtTreeMap.getElem?_insert]
    split <;> rfl
  simp only [bare, Program.bare, putFunction, hfunctions]
  rfl

theorem putAll_bare (b : Builder) (es : List Emission) : (b.putAll es).bare = b.bare.putAll (es.map Emission.bare) := by
  induction es generalizing b with
  | nil => rfl
  | cons e es ih =>
    simp only [putAll, List.foldl_cons, List.map_cons] at ih ⊢
    rw [ih, putFunction_bare]

theorem putRecord?_bare (o : Options) (b : Builder) (literals : Option (List Literal)) :
    (b.putRecord? o literals).bare = b.bare.putRecord? o literals := by
  cases literals <;> rfl

theorem finish_bare (b : Builder) : b.bare.finish = b.finish.bare := by
  have hcommonjs : b.bare.commonjs = b.commonjs := rfl
  rw [finish, finish, hcommonjs]
  split <;> rfl

/-- Whether debug information is asked for has no part in what is put in. -/
theorem ending_debug (o : Options) (debug : Bool) (es : List Emission) (literals : Option (List Literal)) :
    ((Builder.start { o with debug }).putAll es).putRecord? { o with debug } literals =
      ((Builder.start o).putAll es).putRecord? o literals := by
  cases literals <;> rfl

/-- Functions of drafts are all that is put in with their emissions. -/
theorem Grown.putAll {o : Options} {drafts : List Draft} {b : Builder} {es : List Emission} (h : Grown o drafts b)
    (hes : ∀ e ∈ es, ∃ d ∈ drafts, d.emit o.debug = .ok e) : Grown o drafts (b.putAll es) := by
  induction es generalizing b with
  | nil => exact h
  | cons e es ih =>
    obtain ⟨d, hd, he⟩ := hes e List.mem_cons_self
    exact ih (h.putFunction hd he) fun e' he' => hes e' (List.mem_cons_of_mem e he')

theorem Grown.putRecord? {o : Options} {drafts : List Draft} {b : Builder} (h : Grown o drafts b)
    (literals : Option (List Literal)) : Grown o drafts (b.putRecord? o literals) := by
  cases literals with
  | none => exact h
  | some literals => exact h.putModuleRecord o.commonjs literals

end Builder

/-! ## Listing -/

namespace Listing

/-- What is not there cannot be shown. -/
theorem instruction_bare (debug : Bool) (offset : Nat) (i : Function.Instruction) :
    instruction debug offset { i with position := none } = instruction false offset i := by
  cases debug with
  | false => rfl
  | true => simp only [instruction, Option.map_none, Option.getD_none, if_true, Bool.false_eq_true, if_false]

theorem body_bare (debug : Bool) (is : List Function.Instruction) :
    body debug (is.map fun i => { i with position := none }) = body false is := by
  unfold body
  rw [List.zipIdx_map, List.map_map]
  refine congrArg String.join (List.map_congr_left fun x _ => ?_)
  obtain ⟨i, offset⟩ := x
  exact instruction_bare debug offset i

theorem function_bare (debug : Bool) (f : Function) : function debug f.bare = function false f := by
  have hbody : body debug f.bare.instructions = body false f.instructions := body_bare debug f.instructions
  have hrest : (if debug then String.join (f.bare.locals.map localVariable) ++ (f.bare.source.map source).getD ""
      else "") = "" := by
    cases debug <;> rfl
  unfold function
  simp only [hbody, hrest, Bool.false_eq_true, if_false]
  rfl

theorem inOrder_bare (debug : Bool) (literalArrays : List (String × List Literal)) (records : List Program.Record)
    (functions : List Function) (strings : List String) :
    inOrder debug literalArrays records (functions.map Function.bare) strings =
      inOrder false literalArrays records functions strings := by
  have hfunction : function debug ∘ Function.bare = function false := funext (function_bare debug)
  unfold inOrder
  rw [List.map_map, hfunction]

end Listing

namespace Program

/-- A listing without debug information shows a program as if it had none. -/
theorem listing_bare (p : Program) (debug : Bool) : p.bare.listing debug = p.listing false := by
  have hfunctions : (p.bare.functions.toList.mergeSort fun a b => a.1 ≤ b.1).map Prod.snd =
      ((p.functions.toList.mergeSort fun a b => a.1 ≤ b.1).map Prod.snd).map Function.bare := by
    have htable : p.bare.functions.toList = p.functions.toList.map fun e => (e.1, e.2.bare) :=
      Std.ExtTreeMap.toList_map
    have hsorted : (p.functions.toList.mergeSort fun a b => a.1 ≤ b.1).map (fun e => (e.1, e.2.bare)) =
        (p.functions.toList.map fun e => (e.1, e.2.bare)).mergeSort fun a b => a.1 ≤ b.1 :=
      List.map_mergeSort (f := fun e : String × Function => (e.1, e.2.bare)) fun _ _ _ _ => rfl
    rw [htable, ← hsorted, List.map_map, List.map_map]
    rfl
  have hlisting := Listing.inOrder_bare debug p.literalArrays.toList
    ((p.records.toList.map Prod.snd).mergeSort fun a b => a.name ≤ b.name)
    ((p.functions.toList.mergeSort fun a b => a.1 ≤ b.1).map Prod.snd) p.strings.toList
  rw [← hfunctions, ← Listing.ofTables_eq, ← Listing.ofTables_eq] at hlisting
  exact hlisting

theorem Linked.keyedByName {p : Program} {o : Options} {drafts : List Draft} (h : p.Linked o drafts) :
    p.KeyedByName where
  functions name f hf := (h.functions name f hf).1
  records name r hr := (h.records name r hr).1

theorem KeyedByName.listedAs {p : Program} (h : p.KeyedByName) (debug : Bool) : p.ListedAs debug (p.listing debug) := by
  obtain ⟨functions, records, -, hlisted⟩ := h.listed
  have htext := hlisted debug p.records.toList p.functions.toList (.refl _) (.refl _)
  rw [listing, htext]
  exact hlisted debug

end Program

/-! ## Release builds -/

namespace Build

variable {o : Options} {linkage : Option Linkage} {drafts : List Draft} {parallelism : Nat} {schedule : List Turn}

/-- Drafts that can be emitted have their emissions. -/
theorem exists_emissions {debug : Bool} (h : ∀ d ∈ drafts, ∃ e, d.emit debug = .ok e) :
    ∃ es, List.Forall₂ (fun d e => Draft.emit debug d = .ok e) drafts es := by
  induction drafts with
  | nil => exact ⟨[], .nil⟩
  | cons d drafts ih =>
    obtain ⟨e, he⟩ := h d List.mem_cons_self
    obtain ⟨es, hes⟩ := ih fun d' hd' => h d' (List.mem_cons_of_mem d hd')
    exact ⟨e :: es, .cons he hes⟩

/-- Drafts that are all emitted give a program with everything put in, under every schedule. -/
theorem scheduled_eq_finish {literals : Option (List Literal)} {es : List Emission}
    (hl : linkageLiterals linkage = .ok literals) (hn : (drafts.map Draft.name).Nodup)
    (hes : List.Forall₂ (fun d e => Draft.emit o.debug d = .ok e) drafts es) (parallelism : Nat)
    (schedule : List Turn) : scheduled o linkage drafts parallelism schedule =
      .ok (((Builder.start o).putAll es).putRecord? o literals).finish := by
  have hfate : drafts.findSome? (Draft.error? o.debug) = none := by
    rw [List.findSome?_eq_none_iff]
    intro d hd
    obtain ⟨e, -, he⟩ := exists_of_mem_forall₂ hes.flip hd
    simp only [Draft.error?, he]
  have htodo : (chunks (chunkSize parallelism drafts.length) drafts).flatMap (emittable o.debug) = es :=
    flatMap_emittable (by rw [chunks_flatten, map_eq_map_ok.mpr hes])
  rw [scheduled_eq hl hn, hfate, ending_begin, htodo]
  rfl

/-- The emissions of drafts are all that a build with a program has put together. -/
theorem exists_emissions_of_scheduled {program : Program}
    (h : scheduled o linkage drafts parallelism schedule = .ok program) :
    ∃ literals es, linkageLiterals linkage = .ok literals ∧ (drafts.map Draft.name).Nodup ∧
      List.Forall₂ (fun d e => Draft.emit o.debug d = .ok e) drafts es ∧
      program = (((Builder.start o).putAll es).putRecord? o literals).finish := by
  obtain ⟨hemits, hnames, hlinkage⟩ := buildable_of_scheduled h
  obtain ⟨literals, hl⟩ := exists_linkageLiterals.mpr hlinkage
  obtain ⟨es, hes⟩ := exists_emissions hemits
  rw [scheduled_eq_finish hl hnames hes] at h
  exact ⟨literals, es, hl, hnames, hes, (Except.ok.inj h).symm⟩

theorem keyedByName_of_scheduled {program : Program}
    (h : scheduled o linkage drafts parallelism schedule = .ok program) : program.KeyedByName := by
  obtain ⟨literals, es, -, -, hes, rfl⟩ := exists_emissions_of_scheduled h
  have hgrown : ((Builder.start o).putAll es).Grown o drafts :=
    Builder.Grown.start.putAll fun e he => exists_of_mem_forall₂ hes he
  exact (hgrown.putRecord? literals).finish.keyedByName

/-- Where there is a program with debug information, a build that asks for none gives the same without it. -/
theorem scheduled_release {program : Program}
    (h : scheduled { o with debug := true } linkage drafts parallelism schedule = .ok program) (parallelism' : Nat)
    (schedule' : List Turn) :
    scheduled { o with debug := false } linkage drafts parallelism' schedule' = .ok program.bare := by
  obtain ⟨literals, es, hl, hnames, hes, rfl⟩ := exists_emissions_of_scheduled h
  have hbare : List.Forall₂ (fun d e => Draft.emit false d = .ok e) drafts (es.map Emission.bare) :=
    List.forall₂_map_right_iff.mpr (hes.imp fun _ _ => Emission.emit_bare)
  have hrelease := scheduled_eq_finish (o := { o with debug := false }) hl hnames hbare parallelism' schedule'
  rw [hrelease, Builder.ending_debug o false, Builder.ending_debug o true, ← Builder.finish_bare,
    Builder.putRecord?_bare, Builder.putAll_bare, Builder.start_bare]

/-- **Turning debug information off** when a program is built, and hiding it when the program is listed, give one
listing. -/
theorem listing_release {program : Program}
    (h : scheduled { o with debug := true } linkage drafts parallelism schedule = .ok program) :
    ∃ release, (∀ parallelism' schedule',
        scheduled { o with debug := false } linkage drafts parallelism' schedule' = .ok release) ∧
      program.listing false = release.listing false ∧ release.listing true = release.listing false ∧
      program.ListedAs false (program.listing false) ∧ ∀ debug, release.ListedAs debug (release.listing debug) := by
  have hrelease := scheduled_release h
  refine ⟨program.bare, hrelease, ?_, ?_, ?_, fun debug => ?_⟩
  · rw [Program.listing_bare]
  · rw [Program.listing_bare, Program.listing_bare]
  · exact (keyedByName_of_scheduled h).listedAs false
  · exact (keyedByName_of_scheduled (hrelease parallelism schedule)).listedAs debug

/-- Two functions with variables, on two workers with debug information and on one without. -/
theorem listing_release_retry : ∃ program,
    scheduled { debug := true, commonjs := true } (some relayLinkage) [retryDraft "f", retryDraft "g"] 2 [.worker 1] =
      .ok program ∧
    (program.function? "f").map (·.locals.length) = some 2 ∧
    ∃ release, scheduled { commonjs := true } (some relayLinkage) [retryDraft "f", retryDraft "g"] 1 [] = .ok release ∧
      program.listing false = release.listing false ∧ release.listing true = release.listing false := by
  refine exists_ok_and (f := fun p : Program => (p.function? "f").map (·.locals.length)) ?_ fun program hp => ?_
  · decide +kernel
  · obtain ⟨release, hrelease, hlisting, hhidden, -⟩ := listing_release (o := { commonjs := true }) hp
    exact ⟨release, hrelease 1 [], hlisting, hhidden⟩

end Build

end ScriptAssembly
