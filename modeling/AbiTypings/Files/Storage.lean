import AbiTypings.Files.Path
import AbiTypings.Text.Quoted

/-!
# What a run asks of a file system

A run reads files by their paths, makes directories, and writes files. Whatever can do this is a
storage; how it keeps its files and where its paths lead is its own affair.
-/

namespace AbiTypings

inductive FileFault where
  | missing
  | notDirectory
  | isDirectory
  | present
  | nameTooLong
  | tooManyLinks
  deriving DecidableEq, Repr

namespace FileFault

def number : FileFault → Nat
  | missing => 2
  | present => 17
  | notDirectory => 20
  | isDirectory => 21
  | nameTooLong => 36
  | tooManyLinks => 40

def description : FileFault → String
  | missing => "No such file or directory"
  | present => "File exists"
  | notDirectory => "Not a directory"
  | isDirectory => "Is a directory"
  | nameTooLong => "File name too long"
  | tooManyLinks => "Too many levels of symbolic links"

def message (f : FileFault) (path : String) : String :=
  "[Errno " ++ toString f.number ++ "] " ++ f.description ++ ": " ++ Text.quoted path

end FileFault

/-- Why a path could not be used. A path with a NUL in it is never handed to the system. -/
inductive PathFault where
  | embeddedNul
  | file (fault : FileFault)
  deriving DecidableEq, Repr

class Storage (σ : Type) where
  readFile : σ → String → Except PathFault ByteArray
  isDirectory : σ → String → Except FileFault Bool
  makeDirectory : σ → Path → Except PathFault σ
  writeFile : σ → Path → ByteArray → Except PathFault σ

namespace Storage

variable {σ : Type} [Storage σ]

/-- Forgives a failure to make a directory that is there already. -/
def acceptPresent (t : σ) (p : Path) (fault : PathFault) : Except PathFault Unit :=
  match fault with
  | .embeddedNul => .error fault
  | .file .missing => .error fault
  | .file f =>
    match isDirectory t p.text with
    | .ok true => .ok ()
    | .ok false => .error (.file f)
    | .error g => .error (.file g)

/-- Makes a directory and, where they are missing, the ones above it. The parts are given last
one first. What has been made stays, also when a later step fails. -/
def makeDirectories (t : σ) (anchor : Anchor) : List String → σ × Except PathFault Unit
  | [] => (t, .ok ())
  | last :: above =>
    let p : Path := ⟨anchor, (last :: above).reverse⟩
    match makeDirectory t p with
    | .ok t' => (t', .ok ())
    | .error (.file .missing) =>
      match makeDirectories t anchor above with
      | (t', .error e) => (t', .error e)
      | (t', .ok ()) =>
        match makeDirectory t' p with
        | .ok t'' => (t'', .ok ())
        | .error fault => (t', acceptPresent t' p fault)
    | .error fault => (t, acceptPresent t p fault)

/-- What each new directory keeps is kept when they are made one below the other. -/
theorem makeDirectories_of_makeDirectory {inv : σ → Prop} {anchor : Anchor} {parts : List String}
    (hmake : ∀ {t t' : σ} {p : Path}, (∀ s ∈ p.parts, s ∈ parts) →
      makeDirectory t p = .ok t' → inv t → inv t')
    {t : σ} (h : inv t) : inv (makeDirectories t anchor parts).1 := by
  induction parts generalizing t with
  | nil => exact h
  | cons last above ih =>
      have hlast : ∀ s ∈ (last :: above).reverse, s ∈ last :: above := fun s ↦ List.mem_reverse.mp
      have habove : inv (makeDirectories t anchor above).1 :=
        ih (fun hp ↦ hmake fun s hs ↦ List.mem_cons_of_mem last (hp s hs)) h
      rw [makeDirectories]
      split
      case h_1 t' hmade => exact hmake hlast hmade h
      case h_2 =>
        split
        case h_1 heq => rwa [heq] at habove
        case h_2 t' heq =>
          rw [heq] at habove
          split
          case h_1 t'' hmade => exact hmake hlast hmade habove
          case h_2 => exact habove
      case h_3 => exact h

end Storage

end AbiTypings
