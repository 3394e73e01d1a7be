import AbiTypings.Main
import AbiTypings.Proofs.TypeScript.Drafting
import AbiTypings.Proofs.TypeScript.Layout
import AbiTypings.Proofs.TypeScript.Mutability
import AbiTypings.Proofs.TypeScript.Culprit
import AbiTypings.Proofs.TypeScript.Keys
import AbiTypings.Proofs.TypeScript.Signatures
import AbiTypings.Proofs.Types.Scanning
import AbiTypings.Proofs.Run.Containment
import AbiTypings.Proofs.Run.Outputs
import AbiTypings.Proofs.Run.Records
import AbiTypings.Proofs.Run.Independence
import AbiTypings.Proofs.Run.Confinement
import AbiTypings.Proofs.Run.Rerun
import AbiTypings.Proofs.Report.Agreement
import AbiTypings.Proofs.Abi.Describing
import AbiTypings.Proofs.TypeScript.Identifiers
import AbiTypings.Proofs.Run.InputSets
import AbiTypings.Proofs.Report.Regrouping
import AbiTypings.Proofs.Abi.Artifacts
import AbiTypings.Proofs.Json.Members
