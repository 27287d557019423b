-- SUMMARY: The root of the library, which imports all of its modules.
import StoreLog.Main
import StoreLog.Proofs.Scan.Reference
import StoreLog.Proofs.Outputs
import StoreLog.Proofs.Tree.Files
import StoreLog.Proofs.Scan.Payloads
import StoreLog.Proofs.StoreIndex
import StoreLog.Proofs.Log.Outputs
import StoreLog.Proofs.Log.Policy
import StoreLog.Proofs.Manifest
import StoreLog.Proofs.Dump.Run
import StoreLog.Proofs.Log.StaleIndex
import StoreLog.Proofs.Log.Sharing
import StoreLog.Proofs.Log.Footprint
import StoreLog.Proofs.Log.Order
import StoreLog.Proofs.Log.OwnOutput
import StoreLog.Proofs.IndexManifest
import StoreLog.Proofs.CommandLine.Exit
import StoreLog.Proofs.Scan.Faults
import StoreLog.Proofs.Scan.Growth
import StoreLog.Proofs.Scan.LineEndings
import StoreLog.Proofs.Scan.MatchOrder
import StoreLog.Proofs.Scan.Rendered
import StoreLog.Proofs.Log.Again
import StoreLog.Proofs.Config.Validate
import StoreLog.Proofs.Dump.Destination
import StoreLog.Proofs.Dump.Warnings
import StoreLog.Proofs.Dump.OutputDir
