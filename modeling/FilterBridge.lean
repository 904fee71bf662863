import FilterBridge.Agent
import FilterBridge.Bridge
import FilterBridge.Config
import FilterBridge.FileStore
import FilterBridge.Operator
import FilterBridge.Proofs.FilterRuns
import FilterBridge.Proofs.LoadRuns
import FilterBridge.Proofs.Restart
import FilterBridge.Proofs.Census
import FilterBridge.Proofs.NetworkMap
import FilterBridge.Proofs.KeyAgreement
import FilterBridge.Proofs.Simulation
import FilterBridge.Proofs.PasswordFile
import FilterBridge.Proofs.TinyFragments
import FilterBridge.Proofs.Balance
import FilterBridge.Proofs.Resealing
import FilterBridge.Proofs.Faithful
import FilterBridge.Proofs.Delivery
import FilterBridge.Proofs.Listed
import FilterBridge.Proofs.Releasing
import FilterBridge.Proofs.Echoes
import FilterBridge.Proofs.FaultFree
import FilterBridge.Proofs.Writing
import FilterBridge.Proofs.Strictness
import FilterBridge.Proofs.Corruption
import FilterBridge.Proofs.Refusals
import FilterBridge.Proofs.BadEntries
import FilterBridge.Proofs.Installing
import FilterBridge.Proofs.Interleaving
import FilterBridge.Proofs.Queries
import FilterBridge.Proofs.ChecksumParts
import FilterBridge.Proofs.Formats
import FilterBridge.Proofs.BlockRuns
import FilterBridge.Proofs.PortRanges
import FilterBridge.Proofs.FileMaps
import FilterBridge.Proofs.Replacement
