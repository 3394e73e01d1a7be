import AbiTypings.Run.Inputs
import AbiTypings.Text.Digit
import AbiTypings.Text.Quoted

/-!
# Arguments of the command

Options may stand anywhere, long ones may be shortened as long as they stay unambiguous, and
short ones may be joined. The inputs are the first run of other arguments; later ones are
surplus. Behind a separator everything is an input.
-/

namespace AbiTypings.CommandLine

inductive CommandOption where
  | help
  | outDir
  | cwd
  | pattern
  | stdout
  | verbose
  deriving DecidableEq, Repr

namespace CommandOption

def takesValue : CommandOption → Bool
  | outDir => true
  | cwd => true
  | pattern => true
  | _ => false

def label : CommandOption → String
  | help => "-h/--help"
  | outDir => "-o/--out-dir"
  | cwd => "--cwd"
  | pattern => "--pattern"
  | stdout => "--stdout"
  | verbose => "-v/--verbose"

end CommandOption

def longOptions : List (String × CommandOption) :=
  [("--help", .help), ("--out-dir", .outDir), ("--cwd", .cwd), ("--pattern", .pattern),
   ("--stdout", .stdout), ("--verbose", .verbose)]

def shortOption? : Char → Option CommandOption
  | 'h' => some .help
  | 'o' => some .outDir
  | 'v' => some .verbose
  | _ => none

inductive Refusal where
  | ambiguous (argument : String) (candidates : List String)
  | valueMissing (o : CommandOption)
  | valueIgnored (o : CommandOption) (value : String)
  | inputsMissing
  | surplus (arguments : List String)
  deriving DecidableEq, Repr

def Refusal.message : Refusal → String
  | ambiguous argument candidates =>
    "ambiguous option: " ++ argument ++ " could match " ++ ", ".intercalate candidates
  | valueMissing o => "argument " ++ o.label ++ ": expected one argument"
  | valueIgnored o value =>
    "argument " ++ o.label ++ ": ignored explicit argument " ++ Text.quoted value
  | inputsMissing => "the following arguments are required: inputs"
  | surplus arguments => "unrecognized arguments: " ++ " ".intercalate arguments

/-! ## One argument at a time -/

/-- An argument, seen by itself. A known option may come with a value or, if it is short, with
more short options. -/
inductive Word where
  | plain (s : String)
  | separator
  | long (o : CommandOption) (value : Option String)
  | short (o : CommandOption) (rest : Option String)
  | unknown (s : String)
  deriving DecidableEq, Repr

def cutAtEquals (cs : List Char) : List Char × Option (List Char) :=
  match cs.dropWhile (· != '=') with
  | [] => (cs, none)
  | _ :: value => (cs.takeWhile (· != '='), some value)

def isDigitsOnly (cs : List Char) : Bool := !cs.isEmpty && cs.all Text.isDigit

/-- A minus sign and a number, whole or with a point. A line feed may follow. -/
def isNegativeNumber (cs : List Char) : Bool :=
  match cs with
  | '-' :: body =>
    let body := if body.getLast? = some '\n' then body.dropLast else body
    match body.dropWhile Text.isDigit with
    | [] => isDigitsOnly body
    | '.' :: fraction => isDigitsOnly fraction
    | _ => false
  | _ => false

/-- An argument that starts with a hyphen and is no option. -/
def undashed (s : String) : Word :=
  if isNegativeNumber s.toList || s.toList.contains ' ' then .plain s else .unknown s

def longWord (s : String) : Except Refusal Word :=
  let (front, value) := cutAtEquals s.toList
  let value := value.map String.ofList
  let candidates := longOptions.filter fun (name, _) ↦ front.isPrefixOf name.toList
  match candidates.find? (·.1.toList == front), candidates with
  | some (_, o), _ => .ok (.long o value)
  | none, [] => .ok (undashed s)
  | none, [(_, o)] => .ok (.long o value)
  | none, several => .error (.ambiguous s (several.map (·.1)))

def shortWord (s : String) (c : Char) (rest : List Char) : Word :=
  match shortOption? c, rest with
  | some o, [] => .short o none
  | some o, '=' :: value => .short o (some (String.ofList value))
  | some o, rest => .short o (some (String.ofList rest))
  | none, _ => undashed s

def wordOf (s : String) : Except Refusal Word :=
  match s.toList with
  | ['-', '-'] => .ok .separator
  | '-' :: '-' :: _ => longWord s
  | '-' :: c :: rest => .ok (shortWord s c rest)
  | _ => .ok (.plain s)

/-- All words; those behind a separator are plain. -/
def wordsOf : List String → Except Refusal (List Word)
  | [] => .ok []
  | s :: rest => do
    match ← wordOf s with
    | .separator => return .separator :: rest.map Word.plain
    | w => return w :: (← wordsOf rest)

/-! ## All arguments -/

structure Arguments where
  inputs : List String
  outDir : Option String
  cwd : Option String
  pattern : String
  stdout : Bool
  verbose : Bool
  deriving DecidableEq, Repr

inductive Phase where
  | before
  | during
  | after
  deriving DecidableEq, Repr

structure Progress where
  settings : Arguments
  phase : Phase
  surplus : List String
  deriving DecidableEq, Repr

inductive Outcome where
  | help
  | refused (r : Refusal)
  deriving DecidableEq, Repr

def initial : Progress :=
  ⟨⟨[], none, some ".", Run.defaultPattern, false, false⟩, .before, []⟩

namespace Progress

/-- An option ends the run of inputs, if one has begun. -/
def closeRun (p : Progress) : Progress :=
  { p with phase := if p.phase = .before then .before else .after }

def addPlain (p : Progress) (s : String) : Progress :=
  if p.phase = .after then { p with surplus := p.surplus ++ [s] }
  else { p with
    settings := { p.settings with inputs := p.settings.inputs ++ [s] }
    phase := .during }

/-- A separator that stands in the run of inputs, or begins it, is dropped. -/
def addSeparator (p : Progress) (last : Bool) : Progress :=
  if p.phase = .after ∨ p.phase = .before ∧ last then { p with surplus := p.surplus ++ ["--"] }
  else { p with phase := .during }

def addSurplus (p : Progress) (s : String) : Progress :=
  { p.closeRun with surplus := p.surplus ++ [s] }

def setFlag (p : Progress) (o : CommandOption) : Except Outcome Progress :=
  match o with
  | .help => .error .help
  | .stdout => .ok { p.closeRun with settings := { p.settings with stdout := true } }
  | .verbose => .ok { p.closeRun with settings := { p.settings with verbose := true } }
  | _ => .ok p.closeRun

/-- A separator as a value counts as none. -/
def setValue (p : Progress) (o : CommandOption) (value : String) : Progress :=
  let given := if value = "--" then none else some value
  match o with
  | .outDir => { p.closeRun with settings := { p.settings with outDir := given } }
  | .cwd => { p.closeRun with settings := { p.settings with cwd := given } }
  | .pattern => { p.closeRun with settings := { p.settings with pattern := given.getD "" } }
  | _ => p.closeRun

/-- Short options that stand in one argument behind the flag `o`. They count only if all of them
are known; the last may take a value, which is what follows it or, if nothing does, `none`. -/
def shortFlags (o : CommandOption) :
    List Char → Except Refusal (List CommandOption × Option (CommandOption × Option String))
  | [] => .ok ([o], none)
  | c :: rest =>
    match shortOption? c with
    | none => .error (.valueIgnored o (String.ofList (c :: rest)))
    | some next =>
      if next.takesValue then
        .ok ([o], some (next, if rest.isEmpty then none else some (String.ofList rest)))
      else do
        let (flags, value) ← shortFlags next rest
        return (o :: flags, value)

end Progress

def refuse {α : Type} (r : Refusal) : Except Outcome α := .error (.refused r)

def setFlags (p : Progress) : List CommandOption → Except Outcome Progress
  | [] => .ok p
  | o :: rest => do
    let p ← p.setFlag o
    setFlags p rest

/-- Takes the words in order. The value of an option may be the next word if that is plain. -/
def takeWords (p : Progress) : List Word → Except Outcome Progress
  | [] => .ok p
  | .plain s :: rest => takeWords (p.addPlain s) rest
  | .separator :: rest => takeWords (p.addSeparator rest.isEmpty) rest
  | .unknown s :: rest => takeWords (p.addSurplus s) rest
  | .long o (some value) :: rest =>
    if o.takesValue then takeWords (p.setValue o value) rest
    else refuse (.valueIgnored o value)
  | .short o (some value) :: rest =>
    if o.takesValue then takeWords (p.setValue o value) rest
    else if value.isEmpty then refuse (.valueIgnored o value)
    else match Progress.shortFlags o value.toList with
      | .error r => refuse r
      | .ok (flags, none) => do
        let p ← setFlags p flags
        takeWords p rest
      | .ok (flags, some (last, some value)) => do
        let p ← setFlags p flags
        takeWords (p.setValue last value) rest
      | .ok (flags, some (last, none)) =>
        match rest with
        | .plain value :: rest => do
          let p ← setFlags p flags
          takeWords (p.setValue last value) rest
        | _ => refuse (.valueMissing last)
  | .long o none :: rest =>
    if o.takesValue then
      match rest with
      | .plain value :: rest => takeWords (p.setValue o value) rest
      | _ => refuse (.valueMissing o)
    else do
      let p ← p.setFlag o
      takeWords p rest
  | .short o none :: rest =>
    if o.takesValue then
      match rest with
      | .plain value :: rest => takeWords (p.setValue o value) rest
      | _ => refuse (.valueMissing o)
    else do
      let p ← p.setFlag o
      takeWords p rest

def Arguments.read (arguments : List String) : Except Outcome Arguments :=
  match wordsOf arguments with
  | .error r => refuse r
  | .ok words => do
    let p ← takeWords initial words
    if p.settings.inputs.isEmpty then refuse .inputsMissing
    else if p.surplus.isEmpty then return p.settings
    else refuse (.surplus p.surplus)

end AbiTypings.CommandLine
