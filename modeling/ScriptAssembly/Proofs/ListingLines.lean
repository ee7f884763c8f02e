import ScriptAssembly.Program.Listing
import ScriptAssembly.Proofs.InstructionText
/-
The lines of a listing that begin with a dot.

A record and a function are each shown as a block: a header, which begins with
a dot, and lines that begin with a tab, up to a closing brace. Headings, literal
arrays and strings have no dot in front. So whoever goes through a listing line
by line finds the headers, one for each block and in its order, and nothing else
but the line of the language.

That much depends on names. They are shown as they are, and one with a line feed
in it makes two lines, of which the second may look like anything, even like a
header. What is shown in any other way stays on its line: a quoted string has
its line feeds escaped, and numerals have none. The same goes for the first
character of a line: it is fixed, but for the key of a literal array.
-/
namespace ScriptAssembly

namespace Text

/-! ## Texts on one line -/

/-- A text without a line feed. -/
def OneLine (s : String) : Prop := '\n' ∉ s.toList

instance (s : String) : Decidable (OneLine s) := inferInstanceAs (Decidable ('\n' ∉ s.toList))

@[simp] theorem oneLine_append {s t : String} : OneLine (s ++ t) ↔ OneLine s ∧ OneLine t := by
  simp [OneLine]

@[simp] theorem oneLine_ofList {cs : List Char} : OneLine (String.ofList cs) ↔ '\n' ∉ cs := by
  simp [OneLine]

theorem oneLine_intercalate {sep : String} (hsep : OneLine sep) {ss : List String} (h : ∀ s ∈ ss, OneLine s) :
    OneLine (sep.intercalate ss) := by
  induction ss with
  | nil => simp [OneLine]
  | cons s ss ih =>
    rw [List.forall_mem_cons] at h
    cases ss with
    | nil => simpa using h.1
    | cons t ss =>
      rw [String.intercalate_cons_cons, oneLine_append, oneLine_append]
      exact ⟨⟨h.1, hsep⟩, ih h.2⟩

/-- Items on a line, with a blank in front of them if there are any. -/
theorem oneLine_items {α : Type} {f : α → String} {xs : List α} (h : ∀ x ∈ xs, OneLine (f x)) :
    OneLine (if xs.isEmpty then "" else " " ++ ", ".intercalate (xs.map f)) := by
  split
  · decide
  · refine oneLine_append.mpr ⟨by decide, oneLine_intercalate (by decide) fun s hs => ?_⟩
    obtain ⟨x, hx, rfl⟩ := List.mem_map.mp hs
    exact h x hx

@[simp] theorem oneLine_decimal (n : Nat) : OneLine (decimal n) := not_mem_decimal (by decide) n

@[simp] theorem oneLine_signedDecimal (z : Int) : OneLine (signedDecimal z) :=
  not_mem_signedDecimal (by decide) (by decide) z

theorem newline_not_mem_hexDigits (n : Nat) : '\n' ∉ hexDigits n := not_mem_hexDigits (by decide) n

@[simp] theorem oneLine_hex64 (w : UInt64) : OneLine (hex64 w) := by
  have hdigits := newline_not_mem_hexDigits w.toNat
  simp [hex64, padStart, List.leftpad, hdigits]

theorem Quoted.newline_not_mem_encodeChar (c : Char) : '\n' ∉ encodeChar c := by
  rcases encodeChar_cases c with ⟨e, he, hc⟩ | hc | ⟨-, hc⟩ <;> rw [hc]
  · have hshort : ∀ p ∈ shortEscapes, p.2 ≠ '\n' := by decide
    simpa using (hshort _ he).symm
  · simpa [codePoint] using newline_not_mem_hexDigits c.toNat
  · -- a line feed has a short escape, so it is not the character itself
    rw [List.mem_singleton]
    rintro rfl
    exact absurd hc (by decide)

@[simp] theorem oneLine_quote (s : String) : OneLine (quote s) := by
  rw [quote, oneLine_ofList]
  simp [Quoted.encode, Quoted.newline_not_mem_encodeChar]

/-! ## Lines -/

/-- The texts between line feeds. -/
def lines (s : String) : List String := (s.toList.splitOn '\n').map String.ofList

/-- Whether the first character is a dot. -/
def isDotted (line : String) : Bool := line.toList.head? == some '.'

/-- A text of whole lines, of which those that begin with a dot are the given ones. -/
inductive Marks : String → List String → Prop
  | empty : Marks "" []
  | line {s l : String} {ds : List String} : OneLine l → Marks s ds →
      Marks (l ++ "\n" ++ s) ([l].filter isDotted ++ ds)

namespace Marks

variable {s t l : String} {ds es : List String}

/-- Its lines, as they are found by looking for line feeds, are the lines that a text was made of. -/
theorem lines_eq (h : Marks s ds) : (lines s).filter isDotted = ds := by
  induction h with
  | empty => decide
  | @line s l ds hl _ ih =>
    have hsplit : (l ++ "\n" ++ s).toList = l.toList ++ '\n' :: s.toList := by simp
    rw [lines, hsplit, List.splitOn_append_cons_self_of_not_mem hl, List.map_cons, String.ofList_toList,
      ← List.singleton_append, List.filter_append]
    exact congrArg _ ih

theorem append (hs : Marks s ds) (ht : Marks t es) : Marks (s ++ t) (ds ++ es) := by
  induction hs with
  | empty => simpa using ht
  | line hl _ ih =>
    rw [String.append_assoc, List.append_assoc]
    exact line hl ih

theorem join {α : Type} {f : α → String} {g : α → List String} {xs : List α} (h : ∀ x ∈ xs, Marks (f x) (g x)) :
    Marks (String.join (xs.map f)) (xs.flatMap g) := by
  induction xs with
  | nil => exact .empty
  | cons x xs ih =>
    rw [List.forall_mem_cons] at h
    rw [List.map_cons, String.join_cons, List.flatMap_cons]
    exact h.1.append (ih h.2)

theorem join_map {α : Type} {f : α → String} {g : α → String} {xs : List α} (h : ∀ x ∈ xs, Marks (f x) [g x]) :
    Marks (String.join (xs.map f)) (xs.map g) := by
  rw [List.map_eq_flatMap (f := g)]
  exact join h

theorem join_nil {α : Type} {f : α → String} {xs : List α} (h : ∀ x ∈ xs, Marks (f x) []) :
    Marks (String.join (xs.map f)) [] := by
  have hnil : xs.flatMap (fun _ => ([] : List String)) = [] := List.flatMap_eq_nil_iff.mpr fun _ _ => rfl
  exact hnil ▸ join h

theorem of_dotted (hl : OneLine l) (hdot : isDotted l = true) : Marks (l ++ "\n") [l] := by
  simpa [hdot] using line hl empty

theorem of_not_dotted (hl : OneLine l) (hdot : isDotted l = false) : Marks (l ++ "\n") [] := by
  simpa [hdot] using line hl empty

theorem blank : Marks ("" ++ "\n") [] := of_not_dotted (by simp [OneLine]) (by simp [isDotted])

end Marks

end Text

open Text

/-! ## Doubles and kinds -/

namespace Double

theorem newline_not_mem_positional {digits : List Char} (h : '\n' ∉ digits) (p : Int) : '\n' ∉ positional digits p := by
  unfold positional
  split
  · simp [h]
  · split
    · simp [h]
    · simp only [List.mem_append, List.mem_cons, not_or]
      exact ⟨fun hmem => h (List.mem_of_mem_take hmem), by decide, fun hmem => h (List.mem_of_mem_drop hmem)⟩

theorem newline_not_mem_scientific {digits : List Char} (h : '\n' ∉ digits) (p : Int) : '\n' ∉ scientific digits p := by
  have htake : '\n' ∉ digits.take 1 := fun hmem => h (List.mem_of_mem_take hmem)
  have hdrop : '\n' ∉ digits.drop 1 := fun hmem => h (List.mem_of_mem_drop hmem)
  have hpower : '\n' ∉ (signedDecimal (p - 1)).toList := oneLine_signedDecimal _
  unfold scientific
  simp only [List.mem_append, List.mem_cons, not_or]
  refine ⟨⟨htake, ?_⟩, by decide, hpower⟩
  split
  · simp
  · simpa using hdrop

theorem newline_not_mem_magnitudeText (x : Double) : '\n' ∉ x.magnitudeText := by
  unfold magnitudeText
  split
  · decide
  · split
    · decide
    · have hdigits : '\n' ∉ Nat.toDigits 10 x.shortest.coefficient := by
        rw [← toList_decimal]
        exact oneLine_decimal _
      unfold Decimal.text
      dsimp only
      split
      · exact newline_not_mem_positional hdigits _
      · exact newline_not_mem_scientific hdigits _

@[simp] theorem oneLine_text (x : Double) : OneLine x.text := by
  unfold text
  split
  · decide
  · split
    · rw [oneLine_ofList, List.mem_cons, not_or]
      exact ⟨by decide, x.newline_not_mem_magnitudeText⟩
    · exact oneLine_ofList.mpr x.newline_not_mem_magnitudeText

end Double

theorem FunctionKind.oneLine_hexBits (bits : UInt8) : OneLine (hexBits bits) := by
  rw [hexBits, oneLine_append]
  exact ⟨by decide, oneLine_ofList.mpr (newline_not_mem_hexDigits _)⟩

@[simp] theorem FunctionKind.oneLine_describe (k : FunctionKind) : OneLine k.describe := by
  have hflags : ∀ f ∈ flags, OneLine f.2 := by decide
  have hparts : ∀ s ∈ k.parts, OneLine s := by
    intro s hs
    rcases List.mem_append.mp hs with hs | hs
    · obtain ⟨f, hf, rfl⟩ := List.mem_map.mp hs
      exact hflags f (List.mem_filter.mp hf).1
    · split at hs
      · cases hs
      · rw [List.mem_singleton.mp hs]
        exact oneLine_hexBits _
  unfold describe
  simp only [oneLine_append]
  refine ⟨⟨by decide, ?_⟩, by decide⟩
  split
  · exact oneLine_hexBits 0
  · exact oneLine_intercalate (by decide) hparts

/-! ## Names that are shown as they are -/

/-- The name that a literal is shown by. -/
def Literal.name? : Literal → Option String
  | .method f | .generatorMethod f => some f
  | _ => none

/-- The key that a field is shown by. -/
def Program.FieldValue.name? : Program.FieldValue → Option String
  | .literalArray key => some key
  | _ => none

/-- The name or key that an operand is shown by. -/
def Function.Operand.name? : Function.Operand → Option String
  | .function f => some f
  | .literalArray key => some key
  | _ => none

def Program.Record.bareNames (r : Program.Record) : List String :=
  r.name :: r.fields.flatMap fun f => f.name :: f.value.name?.toList

def Function.bareNames (f : Function) : List String :=
  f.name :: ((f.instructions.flatMap fun i => i.operands.filterMap Function.Operand.name?) ++
    f.locals.flatMap fun v => [v.signature, v.name])

/-- A program in which names that are shown as they are take one line, and no key looks like a header. -/
structure Program.Plain (p : Program) : Prop where
  functions : ∀ e ∈ p.functions.toList, ∀ name ∈ e.2.bareNames, OneLine name
  records : ∀ e ∈ p.records.toList, ∀ name ∈ e.2.bareNames, OneLine name
  literals : ∀ e ∈ p.literalArrays.toList, ∀ name ∈ e.2.filterMap Literal.name?, OneLine name
  keys : ∀ e ∈ p.literalArrays.toList, OneLine e.1 ∧ isDotted e.1 = false

instance (p : Program) : Decidable p.Plain :=
  decidable_of_iff ((∀ e ∈ p.functions.toList, ∀ name ∈ e.2.bareNames, OneLine name) ∧
    (∀ e ∈ p.records.toList, ∀ name ∈ e.2.bareNames, OneLine name) ∧
    (∀ e ∈ p.literalArrays.toList, ∀ name ∈ e.2.filterMap Literal.name?, OneLine name) ∧
    ∀ e ∈ p.literalArrays.toList, OneLine e.1 ∧ isDotted e.1 = false)
    ⟨fun ⟨hf, hr, hl, hk⟩ => ⟨hf, hr, hl, hk⟩, fun h => ⟨h.functions, h.records, h.literals, h.keys⟩⟩

namespace Listing

/-! ## Sections -/

theorem marks_heading {title : String} (h : OneLine title) : Marks (heading title) [] := by
  have hlines : "\n# ====================\n# " ++ title ++ "\n\n" =
      ("" ++ "\n") ++ ("# ====================" ++ "\n") ++ ("# " ++ title ++ "\n") ++ ("" ++ "\n") := by
    rw [← String.toList_inj]
    simp
  show Marks ("\n# ====================\n# " ++ title ++ "\n\n") []
  rw [hlines]
  have hrule : Marks ("# ====================" ++ "\n") [] := .of_not_dotted (by simp [OneLine]) (by simp [isDotted])
  have htitle : Marks ("# " ++ title ++ "\n") [] :=
    .of_not_dotted (oneLine_append.mpr ⟨by simp [OneLine], h⟩) (by simp [isDotted])
  exact ((Marks.blank.append hrule).append htitle).append .blank

theorem oneLine_literal {l : Literal} (h : ∀ name ∈ l.name?, OneLine name) : OneLine (literal l) := by
  have htag : OneLine l.tag.name := by
    cases l <;> simp [Literal.tag, LiteralTag.name, OneLine]
  rw [literal, oneLine_append, oneLine_append]
  refine ⟨⟨htag, by decide⟩, ?_⟩
  cases l with
  | bool value => cases value <;> decide
  | integer | methodAffiliate => exact oneLine_decimal _
  | double x => exact x.oneLine_text
  | string s => exact oneLine_quote s
  | method f | generatorMethod f => exact h f rfl
  | accessor | null => decide

/-- The line of a literal array is the only one that begins with a name. -/
theorem marks_literalArray {key : String} {literals : List Literal} (hkey : OneLine key) (hdot : isDotted key = false)
    (h : ∀ name ∈ literals.filterMap Literal.name?, OneLine name) : Marks (literalArray key literals) [] := by
  have hitems : OneLine (if literals.isEmpty then "" else " " ++ ", ".intercalate (literals.map literal)) :=
    oneLine_items fun l hl => oneLine_literal fun name hname => h name (List.mem_filterMap.mpr ⟨l, hl, hname⟩)
  show Marks (key ++ " \x7b " ++ decimal literals.length ++ " [" ++
    (if literals.isEmpty then "" else " " ++ ", ".intercalate (literals.map literal)) ++ " ]\x7d\n") []
  generalize (if literals.isEmpty then "" else " " ++ ", ".intercalate (literals.map literal)) = items at hitems
  have hline : key ++ " \x7b " ++ decimal literals.length ++ " [" ++ items ++ " ]\x7d\n" =
      key ++ " \x7b " ++ decimal literals.length ++ " [" ++ items ++ " ]\x7d" ++ "\n" := by
    rw [← String.toList_inj]
    simp
  rw [hline]
  refine .of_not_dotted (by simp +decide [hkey, hitems]) ?_
  -- an empty key leaves the blank in front
  cases hfirst : key.toList.head? <;> simp_all [isDotted]

/-! ## Records -/

/-- The first line of a record. -/
def recordHeader (r : Program.Record) : String := ".record " ++ r.name ++ " \x7b"

theorem record_eq (r : Program.Record) :
    record r = recordHeader r ++ "\n" ++ String.join (r.fields.map field) ++ "\x7d\n\n" := by
  rw [← String.toList_inj]
  simp [record, recordHeader]

theorem marks_closing : Marks "\x7d\n\n" [] := by
  have hbrace : Marks ("\x7d" ++ "\n") [] := .of_not_dotted (by simp [OneLine]) (by simp [isDotted])
  exact hbrace.append .blank

theorem marks_field {f : Program.Field} (hname : OneLine f.name) (h : ∀ key ∈ f.value.name?, OneLine key) :
    Marks (field f) [] := by
  unfold field
  cases hv : f.value with
  | u8 v | u32 v | string v => exact .of_not_dotted (by simp +decide [hname]) (by simp [isDotted])
  | literalArray key =>
    have hkey : OneLine key := h key (by rw [hv]; rfl)
    exact .of_not_dotted (by simp +decide [hname, hkey]) (by simp [isDotted])

theorem marks_record {r : Program.Record} (h : ∀ name ∈ r.bareNames, OneLine name) :
    Marks (record r) [recordHeader r] := by
  obtain ⟨hname, hfields⟩ := List.forall_mem_cons.mp h
  have hheader : Marks (recordHeader r ++ "\n") [recordHeader r] :=
    .of_dotted (by simp +decide [recordHeader, hname]) (by simp [recordHeader, isDotted])
  have hbody : Marks (String.join (r.fields.map field)) [] := .join_nil fun f hf => by
    refine marks_field (hfields _ (List.mem_flatMap.mpr ⟨f, hf, List.mem_cons_self⟩)) fun key hkey => ?_
    exact hfields _ (List.mem_flatMap.mpr ⟨f, hf, List.mem_cons_of_mem _ (Option.mem_toList.mpr hkey)⟩)
  rw [record_eq]
  exact (hheader.append hbody).append marks_closing

/-! ## Functions -/

theorem oneLine_operand {o : Function.Operand} (h : ∀ name ∈ o.name?, OneLine name) : OneLine (operand o) := by
  cases o with
  | register r => simp +decide [operand]
  | immediate v => exact oneLine_signedDecimal _
  | double x => exact x.oneLine_text
  | string s => exact oneLine_quote s
  | function f => exact h f rfl
  | literalArray key => exact h key rfl
  | offset n => simp +decide [operand]

theorem oneLine_operands {os : List Function.Operand} (h : ∀ name ∈ os.filterMap Function.Operand.name?, OneLine name) :
    OneLine (operands os) :=
  oneLine_items fun o ho => oneLine_operand fun name hname => h name (List.mem_filterMap.mpr ⟨o, ho, hname⟩)

theorem marks_instruction {debug : Bool} {offset : Nat} {i : Function.Instruction}
    (h : ∀ name ∈ i.operands.filterMap Function.Operand.name?, OneLine name) :
    Marks (instruction debug offset i) [] := by
  have hoffset : OneLine (padStart 4 ' ' (decimal offset)) := not_mem_padStart_decimal (by decide) (by decide) 4 offset
  have hmnemonic : OneLine i.opcode.mnemonic := fun hmem => (i.opcode.ne_of_mem_mnemonic _ hmem).2 rfl
  have hposition : OneLine (if debug then (i.position.map position).getD "" else "") := by
    split
    · cases i.position with
      | none => decide
      | some p => simp +decide [position]
    · decide
  refine .of_not_dotted ?_ (by simp [isDotted])
  simp +decide only [oneLine_append, hoffset, hmnemonic, oneLine_operands h, hposition, and_true]

theorem marks_body {debug : Bool} {is : List Function.Instruction}
    (h : ∀ i ∈ is, ∀ name ∈ i.operands.filterMap Function.Operand.name?, OneLine name) : Marks (body debug is) [] :=
  .join_nil fun i hi => marks_instruction (h i.1 (List.fst_mem_of_mem_zipIdx hi))

theorem marks_catchBlock (b : Function.CatchBlock) : Marks (catchBlock b) [] :=
  .of_not_dotted (by simp +decide) (by simp [isDotted])

theorem marks_localVariable {v : Function.LocalVariable} (hname : OneLine v.name) (hsignature : OneLine v.signature) :
    Marks (localVariable v) [] :=
  .of_not_dotted (by simp +decide [hname, hsignature]) (by simp [isDotted])

theorem marks_source (s : Function.SourceInfo) : Marks (source s) [] :=
  .of_not_dotted (by simp +decide) (by simp [isDotted])

theorem oneLine_parameters (count : Nat) : OneLine (parameters count) := by
  refine oneLine_intercalate (by decide) fun s hs => ?_
  obtain ⟨i, -, rfl⟩ := List.mem_map.mp hs
  simp +decide

/-- The first line of a function. -/
def functionHeader (f : Function) : String :=
  ".function any " ++ f.name ++ "(" ++ parameters f.parameterCount.toNat ++ ") <" ++ f.kind.describe ++ "> \x7b"

/-- The lines of a function between the first one and the closing brace. -/
def functionBody (debug : Bool) (f : Function) : String :=
  body debug f.instructions ++ String.join (f.catchBlocks.map catchBlock) ++
    if debug then String.join (f.locals.map localVariable) ++ (f.source.map source).getD "" else ""

theorem function_eq (debug : Bool) (f : Function) :
    function debug f = functionHeader f ++ "\n" ++ functionBody debug f ++ "\x7d\n\n" := by
  -- with literals as long as these, an equation for `simp` takes too long to be made
  delta function functionHeader functionBody
  rw [← String.toList_inj]
  simp

theorem marks_functionBody {debug : Bool} {f : Function} (h : ∀ name ∈ f.bareNames, OneLine name) :
    Marks (functionBody debug f) [] := by
  have hrest := (List.forall_mem_cons.mp h).2
  have hinstructions : Marks (body debug f.instructions) [] := marks_body fun i hi name hname =>
    hrest name (List.mem_append_left _ (List.mem_flatMap.mpr ⟨i, hi, hname⟩))
  have hcatchBlocks : Marks (String.join (f.catchBlocks.map catchBlock)) [] := .join_nil fun b _ => marks_catchBlock b
  have hlocals : Marks (String.join (f.locals.map localVariable)) [] := .join_nil fun v hv => by
    have hnames : ∀ name ∈ [v.signature, v.name], OneLine name := fun name hname =>
      hrest name (List.mem_append_right _ (List.mem_flatMap.mpr ⟨v, hv, hname⟩))
    exact marks_localVariable (hnames _ (by simp)) (hnames _ (by simp))
  have hsource : Marks ((f.source.map source).getD "") [] := by
    cases f.source with
    | none => exact .empty
    | some s => exact marks_source s
  have hdebug : Marks (if debug then String.join (f.locals.map localVariable) ++ (f.source.map source).getD "" else "")
      [] := by
    split
    · exact hlocals.append hsource
    · exact .empty
  exact (hinstructions.append hcatchBlocks).append hdebug

theorem marks_function {debug : Bool} {f : Function} (h : ∀ name ∈ f.bareNames, OneLine name) :
    Marks (function debug f) [functionHeader f] := by
  have hname : OneLine f.name := h _ List.mem_cons_self
  have hheader : Marks (functionHeader f ++ "\n") [functionHeader f] := by
    delta functionHeader
    exact .of_dotted (by simp +decide [hname, oneLine_parameters]) (by simp [isDotted])
  rw [function_eq]
  exact (hheader.append (marks_functionBody h)).append marks_closing

/-! ## The whole text -/

/-- The listing of tables that are in the order in which they are shown. -/
def inOrder (debug : Bool) (literalArrays : List (String × List Literal)) (records : List Program.Record)
    (functions : List Function) (strings : List String) : String :=
  ".language ECMAScript\n"
    ++ heading "LITERALS" ++ String.join (literalArrays.map fun e => literalArray e.1 e.2)
    ++ heading "RECORDS" ++ String.join (records.map record)
    ++ heading "METHODS" ++ String.join (functions.map (function debug))
    ++ heading "STRINGS" ++ String.join (strings.map fun s => Text.quote s ++ "\n")

/-- A text that begins with the given line, and ends with a closing brace and an empty line. -/
def IsBlock (header block : String) : Prop := ∃ rest, block = header ++ "\n" ++ rest ++ "\x7d\n\n"

/-- A text with a block for each of the records and, behind them, a block for each of the functions. -/
def HasBlocks (records : List Program.Record) (functions : List Function) (text : String) : Prop :=
  ∃ front recordBlocks middle functionBlocks back,
    text = front ++ String.join recordBlocks ++ middle ++ String.join functionBlocks ++ back ∧
    List.Forall₂ (fun r => IsBlock (recordHeader r)) records recordBlocks ∧
    List.Forall₂ (fun f => IsBlock (functionHeader f)) functions functionBlocks

/-- The lines that begin with a dot: that of the language, and one for each block. -/
def headers (records : List Program.Record) (functions : List Function) : List String :=
  ".language ECMAScript" :: (records.map recordHeader ++ functions.map functionHeader)

section InOrder

variable {debug : Bool} {literalArrays : List (String × List Literal)} {records : List Program.Record}
  {functions : List Function} {strings : List String}

theorem hasBlocks_inOrder : HasBlocks records functions (inOrder debug literalArrays records functions strings) := by
  refine ⟨".language ECMAScript\n" ++ heading "LITERALS" ++
    String.join (literalArrays.map fun e => literalArray e.1 e.2) ++ heading "RECORDS", records.map record,
    heading "METHODS", functions.map (function debug),
    heading "STRINGS" ++ String.join (strings.map fun s => Text.quote s ++ "\n"), ?_, ?_, ?_⟩
  · delta inOrder
    simp only [String.append_assoc]
  · rw [List.forall₂_map_right_iff, List.forall₂_same]
    exact fun r _ => ⟨_, record_eq r⟩
  · rw [List.forall₂_map_right_iff, List.forall₂_same]
    exact fun f _ => ⟨_, function_eq debug f⟩

/-- **The headers of a listing** are its lines that begin with a dot. -/
theorem marks_inOrder (hkeys : ∀ e ∈ literalArrays, OneLine e.1 ∧ isDotted e.1 = false)
    (hliterals : ∀ e ∈ literalArrays, ∀ name ∈ e.2.filterMap Literal.name?, OneLine name)
    (hrecords : ∀ r ∈ records, ∀ name ∈ r.bareNames, OneLine name)
    (hfunctions : ∀ f ∈ functions, ∀ name ∈ f.bareNames, OneLine name) :
    Marks (inOrder debug literalArrays records functions strings) (headers records functions) := by
  have hlanguage : Marks ".language ECMAScript\n" [".language ECMAScript"] := by
    have hline : ".language ECMAScript\n" = ".language ECMAScript" ++ "\n" := by decide +kernel
    rw [hline]
    exact .of_dotted (by decide +kernel) (by decide +kernel)
  have harrays : Marks (String.join (literalArrays.map fun e => literalArray e.1 e.2)) [] := .join_nil fun e he =>
    marks_literalArray (hkeys e he).1 (hkeys e he).2 (hliterals e he)
  have hrecordLines : Marks (String.join (records.map record)) (records.map recordHeader) :=
    .join_map fun r hr => marks_record (hrecords r hr)
  have hfunctionLines : Marks (String.join (functions.map (function debug))) (functions.map functionHeader) :=
    .join_map fun f hf => marks_function (hfunctions f hf)
  have hstrings : Marks (String.join (strings.map fun s => Text.quote s ++ "\n")) [] := .join_nil fun s _ =>
    .of_not_dotted (oneLine_quote s) (by simp [quote, isDotted])
  have hall := ((hlanguage.append (marks_heading (by decide : OneLine "LITERALS"))).append harrays)
    |>.append (marks_heading (by decide : OneLine "RECORDS")) |>.append hrecordLines
    |>.append (marks_heading (by decide : OneLine "METHODS")) |>.append hfunctionLines
    |>.append (marks_heading (by decide : OneLine "STRINGS")) |>.append hstrings
  have hheaders : headers records functions = [".language ECMAScript"] ++ [] ++ [] ++ [] ++ records.map recordHeader ++
      [] ++ functions.map functionHeader ++ [] ++ [] := by
    simp [headers]
  rw [hheaders]
  exact hall

end InOrder

end Listing

end ScriptAssembly
