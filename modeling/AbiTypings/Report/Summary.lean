import AbiTypings.Report.Group

/-!
# Summaries

The short summary counts errors and warnings by severity and construct, in one line. The long
one lists the errors, the groups of warnings and, if it is verbose, every warning and every
piece of information.
-/

namespace AbiTypings.Report

def ofSeverity (s : Severity) (notices : List Notice) : List Notice :=
  notices.filter (·.severity == s)

def errors (notices : List Notice) : List Notice := ofSeverity .error notices

def warnings (notices : List Notice) : List Notice := ofSeverity .warning notices

def infos (notices : List Notice) : List Notice := ofSeverity .info notices

/-! ## In one line -/

/-- How often a key occurred. -/
abbrev Count := String × Nat

/-- Counts are kept in the order of their keys. -/
def countKey (key : String) : List Count → List Count
  | [] => [(key, 1)]
  | (k, n) :: rest =>
    if k = key then (k, n + 1) :: rest
    else if key < k then (key, 1) :: (k, n) :: rest
    else (k, n) :: countKey key rest

def countKeys (keys : List String) : List Count :=
  keys.foldl (fun counts key ↦ countKey key counts) []

def countedKey (n : Notice) : String := n.severity.label ++ " " ++ n.group.display

def counts (notices : List Notice) : List Count :=
  countKeys ((errors notices ++ warnings notices).map countedKey)

def countText (c : Count) : String := toString c.2 ++ " " ++ c.1

def shortSummary (notices : List Notice) : String :=
  match counts notices with
  | [] => "No generator warnings."
  | cs => "Generator diagnostics: " ++ ", ".intercalate (cs.map countText)

/-! ## In full -/

/-- The head of a section, with an empty line before it. -/
def sectionHead (title : String) (size : Nat) : List String :=
  ["", title ++ " (" ++ toString size ++ "):"]

def errorLines (notices : List Notice) : List String :=
  match errors notices with
  | [] => []
  | found => sectionHead "Generation errors" found.length ++ found.map ("  " ++ ·.text)

def groupLines (verbose : Bool) (g : Group) : List String :=
  ("  " ++ g.shown.display ++ ": " ++ toString g.members.length ++ " occurrence(s)") ::
    if verbose then g.members.map ("    " ++ ·.text) else []

def infoLines (notices : List Notice) : List String :=
  match infos notices with
  | [] => []
  | found => sectionHead "Generator info" found.length ++ found.map ("  " ++ ·.text)

/-- Lines, and whether they are all that was to be written. -/
structure Listing where
  lines : List String
  complete : Bool
  deriving DecidableEq, Repr

/-- The listing breaks off behind the head of the warnings if they cannot be grouped and put in
order. -/
def listing (verbose : Bool) (notices : List Notice) : Listing :=
  let found := warnings notices
  let last := if verbose then infoLines notices else []
  if found.isEmpty then ⟨errorLines notices ++ last, true⟩
  else
    let head := sectionHead "Generator warnings" found.length
    match Group.ordered? found with
    | some groups =>
      ⟨errorLines notices ++ head ++ groups.flatMap (groupLines verbose) ++ last, true⟩
    | none => ⟨errorLines notices ++ head, false⟩

/-- Every line ends with a line feed. -/
def Listing.text (l : Listing) : String := String.join (l.lines.map (· ++ "\n"))

end AbiTypings.Report
