import AbiTypings.Proofs.TypeScript.OneLine

/-!
# The layout of a contract document

A document holds the line of every member once, in order and at the depth of its block, and
nothing else that depends on the contract but its name. As long as no name and no indentation
brings a line feed of its own, the lines of the text are the lines that were written, and the
blocks are found by their first and last lines.
-/

namespace AbiTypings.TypeScript

open Outcome

/-! ## What is written for a contract -/

/-- The lines of the methods in order, those that only read first and the constants last. -/
def methodRenderings (c : Contract) : List (Except Unrecognized String) :=
  c.readOnlyMethods.map methodLine ++ c.methods.map methodLine ++ c.constants.map constantLine

def eventRenderings (c : Contract) : List (Except Unrecognized String) := c.events.map eventLine

theorem lineEach_eq_ok_iff {α : Type} {f : α → Except Unrecognized String} {xs : List α}
    {lines : List String} : lineEach f xs = .ok lines ↔ xs.map f = lines.map .ok := by
  induction xs generalizing lines with
  | nil => cases lines <;> simp [lineEach]
  | cons x rest ih =>
      rw [lineEach, both_eq_ok_iff]
      cases lines with
      | nil => simp
      | cons line others => simp [ih]

theorem methodLines_eq_ok_iff {c : Contract} {lines : List String} :
    methodLines c = .ok lines ↔ methodRenderings c = lines.map .ok := by
  unfold methodLines methodRenderings
  simp only [bind_eq_ok_iff, lineEach_eq_ok_iff, pure, Except.pure, Except.ok.injEq]
  constructor
  · rintro ⟨readOnly, hreadOnly, others, hothers, constants, hconstants, rfl⟩
    rw [hreadOnly, hothers, hconstants, List.map_append, List.map_append]
  · intro h
    obtain ⟨front, constants, rfl, hfront, hconstants⟩ := List.map_eq_append_iff.mp h.symm
    obtain ⟨readOnly, others, rfl, hreadOnly, hothers⟩ := List.map_eq_append_iff.mp hfront
    exact ⟨readOnly, hreadOnly.symm, others, hothers.symm, constants, hconstants.symm, rfl⟩

/-- The text written for a contract whose members have these lines. -/
structure HasRenderings (unit : String) (c : Contract) (methods events : List String)
    (text : String) : Prop where
  hasMethods : methodRenderings c = methods.map .ok
  hasEvents : eventRenderings c = events.map .ok
  isJoined : joinLines (documentLines unit c.name methods events) = text

theorem contractDocument_eq_ok_iff {unit text : String} {c : Contract} :
    contractDocument unit c = .ok text ↔
      ∃ methods events, HasRenderings unit c methods events text := by
  unfold contractDocument contractLines eventLines
  simp only [map_eq_ok_iff, bind_eq_ok_iff, methodLines_eq_ok_iff, lineEach_eq_ok_iff, pure,
    Except.pure, Except.ok.injEq]
  constructor
  · rintro ⟨_, ⟨methods, hmethods, events, hevents, rfl⟩, htext⟩
    exact ⟨methods, events, hmethods, hevents, htext⟩
  · rintro ⟨methods, events, h⟩
    exact ⟨_, ⟨methods, h.hasMethods, events, h.hasEvents, rfl⟩, h.isJoined⟩

/-! ## Lines and blocks -/

/-- The pieces of a text between line feeds. -/
def linesOf (text : String) : List String := (text.split '\n').toList.map (·.copy)

theorem linesOf_joinLines {lines : List String} (hne : lines ≠ [])
    (h : ∀ line ∈ lines, IsOneLine line) : linesOf (joinLines lines) = lines :=
  (String.toList_split_intercalate h).trans (if_neg hne)

/-- The lines behind the first one that opens a block, up to the next one that closes it. -/
def blockOf (opener closer : String) (lines : List String) : List String :=
  ((lines.dropWhile (· ≠ opener)).drop 1).takeWhile (· ≠ closer)

theorem blockOf_append {opener closer : String} {before body : List String}
    (hopener : opener ∉ before) (hcloser : closer ∉ body) (after : List String) :
    blockOf opener closer (before ++ ([opener] ++ body ++ [closer]) ++ after) = body := by
  have hbefore : ∀ line ∈ before, decide (line ≠ opener) = true := by
    intro line hline
    exact decide_eq_true fun heq ↦ hopener (heq ▸ hline)
  have hbody : ∀ line ∈ body, decide (line ≠ closer) = true := by
    intro line hline
    exact decide_eq_true fun heq ↦ hcloser (heq ▸ hline)
  rw [blockOf, List.append_assoc, List.dropWhile_append_of_pos hbefore, List.append_assoc,
    List.append_assoc, List.singleton_append, List.dropWhile_cons_of_neg (by simp), List.drop_one,
    List.tail_cons, List.takeWhile_append_of_pos hbody, List.singleton_append,
    List.takeWhile_cons_of_neg (by simp), List.append_nil]

/-- Neither text ends with the other. -/
def areApart (a b : String) : Bool :=
  !a.toList.isSuffixOf b.toList && !b.toList.isSuffixOf a.toList

theorem suffix_toList_append (a b : String) : b.toList <:+ (a ++ b).toList := by
  rw [String.toList_append]
  exact List.suffix_append _ _

theorem ne_append_of_areApart {unit line a b : String} (hapart : areApart a b = true)
    (hline : b.toList <:+ line.toList) : line ≠ unit ++ a := by
  rintro rfl
  have ha := suffix_toList_append unit a
  simp only [areApart, Bool.and_eq_true, Bool.not_eq_true', Bool.eq_false_iff, ne_eq,
    List.isSuffixOf_iff_suffix] at hapart
  rcases List.suffix_or_suffix_of_suffix ha hline with h | h
  · exact hapart.1 h
  · exact hapart.2 h

/-! ## The lines of a document -/

def methodsStart : String := "methods: \x7b"

def eventsStart : String := "events: \x7b"

def blockEnd : String := "\x7d;"

def classStart : String := "export class "

def classHead : String := " extends Contract \x7b"

def frontLines (unit name : String) : List String :=
  headerLine :: contractImports ++
    ["", classStart ++ name ++ classHead, unit ++ constructorLine]

/-- A block one unit in, with its members two units in. -/
def blockLines (unit start : String) (members : List String) : List String :=
  [unit ++ start] ++ members.map (unit ++ unit ++ ·) ++ [unit ++ blockEnd]

/-- The text is that of a contract with this name and these lines of members. The lines between
the first and the last one of a block are its members, two units in. -/
structure IsLaidOut (unit name : String) (methods events : List String) (text : String) : Prop where
  lines : linesOf text = frontLines unit name ++ blockLines unit methodsStart methods ++
    blockLines unit eventsStart (events ++ allEventsLines) ++ ["\x7d", ""]
  methodsBlock : blockOf (unit ++ methodsStart) (unit ++ blockEnd) (linesOf text) =
    methods.map (unit ++ unit ++ ·)
  eventsBlock : blockOf (unit ++ eventsStart) (unit ++ blockEnd) (linesOf text) =
    (events ++ allEventsLines).map (unit ++ unit ++ ·)

theorem documentLines_eq (unit name : String) (methods events : List String) :
    documentLines unit name methods events =
      frontLines unit name ++ blockLines unit methodsStart methods ++
        blockLines unit eventsStart (events ++ allEventsLines) ++ ["\x7d", ""] := by
  have hone : indentation unit 1 = unit := by simp [indentation]
  have htwo : indentation unit 2 = unit ++ unit := by simp [indentation]
  simp [documentLines, indent, hone, htwo, frontLines, blockLines, methodsStart, eventsStart,
    blockEnd, classStart, classHead]

/-- Endings of the lines in front of the first block, the empty one apart. -/
def frontEnds : List String := headerLine :: contractImports ++ [classHead, constructorLine]

theorem exists_mem_frontEnds {unit name line : String} (h : line ∈ frontLines unit name) :
    line = "" ∨ ∃ b ∈ frontEnds, b.toList <:+ line.toList := by
  rcases List.mem_append.mp h with hfixed | hown
  · exact Or.inr ⟨line, List.mem_append_left _ hfixed, List.suffix_rfl⟩
  · simp only [List.mem_cons, List.not_mem_nil, or_false] at hown
    rcases hown with rfl | rfl | rfl
    · exact Or.inl rfl
    · exact Or.inr ⟨classHead, by simp [frontEnds], suffix_toList_append _ _⟩
    · exact Or.inr ⟨constructorLine, by simp [frontEnds], suffix_toList_append _ _⟩

theorem blockStart_notMem_frontLines {start : String} (hstart : start ∈ [methodsStart, eventsStart])
    (unit name : String) : unit ++ start ∉ frontLines unit name := by
  have hapart : ∀ a ∈ [methodsStart, eventsStart],
      a ≠ "" ∧ ∀ b ∈ frontEnds, areApart a b = true := by
    decide +kernel
  obtain ⟨hne, hends⟩ := hapart start hstart
  intro hmem
  rcases exists_mem_frontEnds hmem with hempty | ⟨b, hb, hline⟩
  · exact hne (String.append_eq_empty_iff.mp hempty).2
  · exact ne_append_of_areApart (hends b hb) hline rfl

theorem append_notMem_members {unit a : String} {members : List String}
    (h : ∀ line ∈ members, ∃ b, areApart a b = true ∧ b.toList <:+ line.toList) :
    unit ++ a ∉ members.map (unit ++ unit ++ ·) := by
  intro hmem
  obtain ⟨line, hline, heq⟩ := List.mem_map.mp hmem
  obtain ⟨b, hapart, hb⟩ := h line hline
  exact ne_append_of_areApart hapart (hb.trans (suffix_toList_append _ line)) heq

theorem isOneLine_frontLines {unit name : String} (hunit : IsOneLine unit)
    (hname : IsOneLine name) : ∀ line ∈ frontLines unit name, IsOneLine line := by
  have hfixed : ∀ line ∈ headerLine :: contractImports, IsOneLine line := by
    decide +kernel
  intro line hline
  rcases List.mem_append.mp hline with hline | hown
  · exact hfixed line hline
  · simp only [List.mem_cons, List.not_mem_nil, or_false] at hown
    rcases hown with rfl | rfl | rfl
    · decide
    · exact isOneLine_append.mpr ⟨isOneLine_append.mpr ⟨by decide, hname⟩, by decide⟩
    · exact isOneLine_append.mpr ⟨hunit, by decide⟩

theorem isOneLine_blockLines {unit start : String} {members : List String} (hunit : IsOneLine unit)
    (hstart : IsOneLine start) (hmembers : ∀ line ∈ members, IsOneLine line) :
    ∀ line ∈ blockLines unit start members, IsOneLine line := by
  simp only [blockLines, List.forall_mem_append, List.forall_mem_map, List.forall_mem_singleton,
    isOneLine_append]
  have hend : IsOneLine blockEnd := by decide
  exact ⟨⟨⟨hunit, hstart⟩, fun line hline ↦ ⟨⟨hunit, hunit⟩, hmembers line hline⟩⟩, hunit, hend⟩

section Document

variable {unit name : String} {methods events : List String} (hunit : IsOneLine unit)
  (hname : IsOneLine name) (hmethods : ∀ line ∈ methods, IsMemberLine line)
  (hevents : ∀ line ∈ events, IsMemberLine line)

include hunit hname hmethods hevents

theorem linesOf_document :
    linesOf (joinLines (documentLines unit name methods events)) =
      documentLines unit name methods events := by
  have hall : ∀ line ∈ allEventsLines, IsOneLine line := by decide
  have hclose : ∀ line ∈ ["\x7d", ""], IsOneLine line := by decide
  apply linesOf_joinLines
  · simp [documentLines]
  · rw [documentLines_eq]
    simp only [List.forall_mem_append]
    refine ⟨⟨⟨isOneLine_frontLines hunit hname, isOneLine_blockLines hunit (by decide) ?_⟩,
      isOneLine_blockLines hunit (by decide) ?_⟩, hclose⟩
    · exact fun line hline ↦ (hmethods line hline).oneLine
    · exact List.forall_mem_append.mpr ⟨fun line hline ↦ (hevents line hline).oneLine, hall⟩

theorem isLaidOut_document :
    IsLaidOut unit name methods events (joinLines (documentLines unit name methods events)) := by
  have hlines := (linesOf_document hunit hname hmethods hevents).trans
    (documentLines_eq unit name methods events)
  have hmethodsEnd (a : String) (ha : areApart a memberEnd = true) :
      unit ++ a ∉ methods.map (unit ++ unit ++ ·) :=
    append_notMem_members fun line hline ↦ ⟨memberEnd, ha, (hmethods line hline).ending⟩
  have hall : ∀ line ∈ allEventsLines, areApart blockEnd line = true := by decide
  have heventsEnd : unit ++ blockEnd ∉ (events ++ allEventsLines).map (unit ++ unit ++ ·) := by
    apply append_notMem_members
    intro line hline
    rcases List.mem_append.mp hline with hevent | hfixed
    · exact ⟨memberEnd, by decide, (hevents line hevent).ending⟩
    · exact ⟨line, hall line hfixed, List.suffix_rfl⟩
  refine ⟨hlines, ?_, ?_⟩
  · rw [hlines, List.append_assoc]
    exact blockOf_append (blockStart_notMem_frontLines (by simp) unit name)
      (hmethodsEnd blockEnd (by decide)) _
  · rw [hlines]
    refine blockOf_append ?_ heventsEnd _
    -- the first block neither starts nor ends like the second, and no member does
    have hstart : methodsStart ≠ eventsStart := by decide
    have hend : blockEnd ≠ eventsStart := by decide
    simp only [blockLines, List.mem_append, List.mem_singleton, String.append_right_inj, not_or]
    exact ⟨blockStart_notMem_frontLines (by simp) unit name,
      ⟨hstart.symm, hmethodsEnd eventsStart (by decide)⟩, hend.symm⟩

end Document

theorem IsLaidOut.eq_of_eq {unit name name' text : String}
    {methods methods' events events' : List String} (h : IsLaidOut unit name methods events text)
    (h' : IsLaidOut unit name' methods' events' text) :
    name = name' ∧ methods = methods' ∧ events = events' := by
  have hinjective : Function.Injective (unit ++ unit ++ ·) :=
    fun _ _ ↦ (String.append_right_inj _).mp
  have hmethods := List.map_injective_iff.mpr hinjective (h.methodsBlock.symm.trans h'.methodsBlock)
  have hevents := List.map_injective_iff.mpr hinjective (h.eventsBlock.symm.trans h'.eventsBlock)
  have hlines := h.lines.symm.trans h'.lines
  simp only [List.append_assoc] at hlines
  have hfront := List.append_inj_left hlines rfl
  refine ⟨?_, hmethods, List.append_cancel_right hevents⟩
  simpa [frontLines] using hfront

/-! ## Contracts and their documents -/

theorem isMemberLine_of_methodRenderings {c : Contract} {methods : List String}
    (hnames : c.HasOneLineNames) (h : methodRenderings c = methods.map .ok) :
    ∀ line ∈ methods, IsMemberLine line := by
  intro line hline
  have hmem : .ok line ∈ methodRenderings c := h ▸ List.mem_map_of_mem hline
  simp only [methodRenderings, List.mem_append, List.mem_map] at hmem
  rcases hmem with (⟨m, hm, hread⟩ | ⟨m, hm, hread⟩) | ⟨k, hk, hread⟩
  · exact isMemberLine_methodLine (hnames.readOnlyMethods m hm) hread
  · exact isMemberLine_methodLine (hnames.methods m hm) hread
  · exact isMemberLine_constantLine (hnames.constants k hk) hread

theorem isMemberLine_of_eventRenderings {c : Contract} {events : List String}
    (hnames : c.HasOneLineNames) (h : eventRenderings c = events.map .ok) :
    ∀ line ∈ events, IsMemberLine line := by
  intro line hline
  have hmem : .ok line ∈ eventRenderings c := h ▸ List.mem_map_of_mem hline
  obtain ⟨e, he, hread⟩ := List.mem_map.mp hmem
  exact isMemberLine_eventLine (hnames.events e he) hread

theorem HasRenderings.isLaidOut {unit text : String} {c : Contract} {methods events : List String}
    (h : HasRenderings unit c methods events text) (hunit : IsOneLine unit)
    (hnames : c.HasOneLineNames) : IsLaidOut unit c.name methods events text :=
  h.isJoined ▸ isLaidOut_document hunit hnames.own
    (isMemberLine_of_methodRenderings hnames h.hasMethods)
    (isMemberLine_of_eventRenderings hnames h.hasEvents)

/-- A document holds the line of every member once, in its block and in order, and so it tells
the name of the contract and the lines of its members. -/
theorem contractDocument_isLaidOut {unit text text' : String} {c c' : Contract}
    (hunit : IsOneLine unit) (hnames : c.HasOneLineNames) (hnames' : c'.HasOneLineNames)
    (h : contractDocument unit c = .ok text) (h' : contractDocument unit c' = .ok text') :
    (∃ methods events, HasRenderings unit c methods events text ∧
      IsLaidOut unit c.name methods events text) ∧
    (text = text' ↔ c.name = c'.name ∧ methodRenderings c = methodRenderings c' ∧
      eventRenderings c = eventRenderings c') := by
  obtain ⟨methods, events, hwritten⟩ := contractDocument_eq_ok_iff.mp h
  obtain ⟨methods', events', hwritten'⟩ := contractDocument_eq_ok_iff.mp h'
  have hlaid := hwritten.isLaidOut hunit hnames
  refine ⟨⟨methods, events, hwritten, hlaid⟩, fun heq ↦ ?_, ?_⟩
  · subst heq
    obtain ⟨hname, rfl, rfl⟩ := hlaid.eq_of_eq (hwritten'.isLaidOut hunit hnames')
    exact ⟨hname, hwritten.hasMethods.trans hwritten'.hasMethods.symm,
      hwritten.hasEvents.trans hwritten'.hasEvents.symm⟩
  · rintro ⟨hname, hmethods, hevents⟩
    rw [hwritten.hasMethods, hwritten'.hasMethods, map_ok_inj] at hmethods
    rw [hwritten.hasEvents, hwritten'.hasEvents, map_ok_inj] at hevents
    rw [← hwritten.isJoined, ← hwritten'.isJoined, hname, hmethods, hevents]

/-- A meter whose total may be declared as a method or as a constant. -/
def meterWith (others : List Method) (constants : List Constant) : Contract where
  name := "Meter"
  methods := ⟨.text "set", [⟨.text "amount", .uint 256⟩], Abi.noOutput⟩ :: others
  readOnlyMethods := []
  constants := constants
  events := [⟨.text "Paid", [⟨⟨.text "to", .address⟩, true⟩]⟩]

/-- No indentation at all, and a constant that is written like a method without inputs. -/
theorem contractDocument_isLaidOut_meter :
    let total : Method := ⟨.text "total", [], [⟨.text "", .uint 256⟩]⟩
    let constant : Constant := ⟨.text "total", .uint 256⟩
    let lines := ["set(amount: number | string): TransactionObject<void>;",
      "total(): TransactionObject<BN>;"]
    (meterWith [total] []).HasOneLineNames ∧ (meterWith [] [constant]).HasOneLineNames ∧
      ∃ text, contractDocument "" (meterWith [total] []) = .ok text ∧
        contractDocument "" (meterWith [] [constant]) = .ok text ∧
        ∃ events, IsLaidOut "" "Meter" lines events text := by
  intro total constant lines
  have hnames : (meterWith [total] []).HasOneLineNames := by decide +kernel
  have hnames' : (meterWith [] [constant]).HasOneLineNames := by decide +kernel
  have hmethods : methodRenderings (meterWith [total] []) = lines.map .ok := rfl
  have hmethods' : methodRenderings (meterWith [] [constant]) = lines.map .ok := rfl
  have hevents (others : List Method) (constants : List Constant) :
      eventRenderings (meterWith others constants) =
        ["Paid: ContractEvent<string>;"].map .ok := rfl
  have h : contractDocument "" (meterWith [total] []) = .ok _ :=
    contractDocument_eq_ok_iff.mpr ⟨_, _, hmethods, hevents _ _, rfl⟩
  have h' : contractDocument "" (meterWith [] [constant]) = .ok _ :=
    contractDocument_eq_ok_iff.mpr ⟨_, _, hmethods', hevents _ _, rfl⟩
  obtain ⟨⟨methods, events, hwritten, hlaid⟩, hiff⟩ :=
    contractDocument_isLaidOut (by decide) hnames hnames' h h'
  have hsame := hiff.mpr ⟨rfl, hmethods.trans hmethods'.symm,
    (hevents _ _).trans (hevents _ _).symm⟩
  obtain rfl : methods = lines := map_ok_inj.mp (hwritten.hasMethods.symm.trans hmethods)
  exact ⟨hnames, hnames', _, h, h'.trans (congrArg Except.ok hsame.symm), events, hlaid⟩

end AbiTypings.TypeScript
