import AbiTypings.CommandLine.Arguments

/-!
# Usage and help

The usage is shown in front of every refusal and at the head of the help.
-/

namespace AbiTypings.CommandLine

def programName : String := "abi2dts"

def usageLines : List String :=
  ["usage: abi2dts [-h] [-o OUT_DIR] [--cwd CWD] [--pattern PATTERN] [--stdout]",
   "               [-v]",
   "               inputs [inputs ...]"]

def helpLines : List String :=
  usageLines ++
  ["",
   "Generate web3.js TypeScript declarations from contract ABIs",
   "",
   "positional arguments:",
   "  inputs                ABI files, directories or glob patterns",
   "",
   "options:",
   "  -h, --help            show this help message and exit",
   "  -o OUT_DIR, --out-dir OUT_DIR",
   "                        Output directory (default: ./types/web3-contracts/)",
   "  --cwd CWD             Directory the output directory is relative to",
   "  --pattern PATTERN     Glob used to find ABI files inside directory inputs",
   "  --stdout              Print to stdout instead of writing files",
   "  -v, --verbose         Verbose logging and diagnostics"]

/-- Every line ends with a line feed. -/
def endLines (lines : List String) : String := String.join (lines.map (· ++ "\n"))

def helpText : String := endLines helpLines

def refusalText (r : Refusal) : String :=
  endLines (usageLines ++ [programName ++ ": error: " ++ r.message])

end AbiTypings.CommandLine
