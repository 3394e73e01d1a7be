import AbiTypings.TypeScript.Member

/-!
# Declaration documents

A document is a list of lines. The one for a contract holds its imports and a class, in which
the methods stand as read-only methods, then the others, then the constants. The shared document
holds the declarations that every contract document refers to.
-/

namespace AbiTypings.TypeScript

/-- Lines joined by line feeds. -/
def joinLines (lines : List String) : String := "\n".intercalate lines

/-- `depth` copies of `unit`; a depth below zero counts as zero. -/
def indentation (unit : String) (depth : Int) : String :=
  String.join (List.replicate depth.toNat unit)

def indent (unit : String) (depth : Int) (lines : List String) : List String :=
  lines.map (indentation unit depth ++ ·)

def defaultUnit : String := "  "

def headerLine : String := "/* Generated by abi2dts. Do not modify manually. */"

def contractImports : List String :=
  ["import BN from \"bn.js\";",
   "import \x7b Contract, ContractOptions, EventOptions \x7d from \"web3-eth-contract\";",
   "import \x7b EventLog \x7d from \"web3-core\";",
   "import \x7b EventEmitter \x7d from \"events\";",
   "import \x7b Callback, TransactionObject, ContractEvent \x7d from \"./types\";"]

def sharedImports : List String :=
  ["import \x7b EventLog \x7d from \"web3-core\";",
   "import BN from \"bn.js\";",
   "import \x7b EstimateGasOptions, EventOptions \x7d from \"web3-eth-contract\";",
   "import \x7b EventEmitter \x7d from \"events\";",
   "// @ts-ignore",
   "import PromiEvent from \"web3-core-promievent\";"]

def sharedDeclarations : List String :=
  ["export type Callback<T> = (error: Error, result: T) => void;",
   "export interface TransactionObject<T> \x7b",
   "  arguments: any[];",
   "  call(options?: EstimateGasOptions): Promise<T>;",
   "  send(options?: EstimateGasOptions): PromiEvent<T>;",
   "  estimateGas(options?: EstimateGasOptions): Promise<number>;",
   "  encodeABI(): string;",
   "\x7d",
   "export interface ContractEventLog<T> extends EventLog \x7b",
   "  returnValues: T;",
   "\x7d",
   "export interface ContractEventEmitter<T> extends EventEmitter \x7b",
   "  on(event: 'data' | 'changed', listener: (event: ContractEventLog<T>) => void): this;",
   "  on(event: 'error', listener: (error: Error) => void): this;",
   "\x7d",
   "export type ContractEvent<T> = (",
   "  options?: EventOptions,",
   "  cb?: Callback<ContractEventLog<T>>",
   ") => ContractEventEmitter<T>;"]

def constructorLine : String :=
  "constructor(jsonInterface: any[], address?: string, options?: ContractOptions);"

/-- The results of `f` in order, or the first failure. -/
def lineEach {α : Type} (f : α → Except Unrecognized String) :
    List α → Except Unrecognized (List String)
  | [] => .ok []
  | x :: rest => do
    let line ← f x
    let lines ← lineEach f rest
    return line :: lines

def methodLines (c : Contract) : Except Unrecognized (List String) := do
  let readOnly ← lineEach methodLine c.readOnlyMethods
  let others ← lineEach methodLine c.methods
  let constants ← lineEach constantLine c.constants
  return readOnly ++ others ++ constants

def eventLines (c : Contract) : Except Unrecognized (List String) :=
  lineEach eventLine c.events

/-- The document of a contract with the given lines in its two blocks. -/
def documentLines (unit name : String) (methods events : List String) : List String :=
  headerLine :: contractImports ++
  ["", "export class " ++ name ++ " extends Contract \x7b"] ++
  indent unit 1 [constructorLine, "methods: \x7b"] ++
  indent unit 2 methods ++
  indent unit 1 ["\x7d;", "events: \x7b"] ++
  indent unit 2 (events ++ allEventsLines) ++
  indent unit 1 ["\x7d;"] ++
  ["\x7d", ""]

def contractLines (unit : String) (c : Contract) : Except Unrecognized (List String) := do
  let methods ← methodLines c
  let events ← eventLines c
  return documentLines unit c.name methods events

def contractDocument (unit : String) (c : Contract) : Except Unrecognized String :=
  joinLines <$> contractLines unit c

def sharedLines : List String := headerLine :: sharedImports ++ sharedDeclarations ++ [""]

def sharedDocument : String := joinLines sharedLines

end AbiTypings.TypeScript
