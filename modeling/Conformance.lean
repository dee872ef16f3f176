import Conformance.Main
import Conformance.Rpc.Http
import Conformance.Proofs.Sandbox.Cases
import Conformance.Proofs.Sandbox.Reached
import Conformance.Proofs.Sandbox.Conservation
import Conformance.Proofs.Json.Carries
import Conformance.Proofs.Json.Texts
import Conformance.Proofs.Machine.Kept
import Conformance.Proofs.Machine.TipSet
import Conformance.Proofs.Rpc.Serving
import Conformance.Proofs.Rpc.Agreement
import Conformance.Proofs.FileTree
import Conformance.Proofs.Fixture.Loading
import Conformance.Proofs.Fixture.Observing
import Conformance.Proofs.Trial.Replay
import Conformance.Proofs.Bytes.Delimited
import Conformance.Proofs.Message.Canonical
import Conformance.Proofs.Machine.Logged
import Conformance.Proofs.Sandbox.Nonces
import Conformance.Proofs.Sandbox.Root
import Conformance.Proofs.Trial.Recording
import Conformance.Proofs.Sandbox.Growth
import Conformance.Proofs.Machine.Closing
import Conformance.Proofs.Sandbox.Settlement
import Conformance.Proofs.Trial.Transparency
import Conformance.Proofs.Json.Faithful
import Conformance.Proofs.Rpc.Formats
import Conformance.Proofs.Rpc.Protocol
import Conformance.Proofs.Rpc.Attribution
import Conformance.Proofs.Sandbox.Application
import Conformance.Proofs.Scenario.Isolation
import Conformance.Proofs.Sandbox.Atomicity
import Conformance.Proofs.Sandbox.Unreachable
import Conformance.Proofs.Fixture.Halting
import Conformance.Proofs.Address
import Conformance.Proofs.Sandbox.Commuting
import Conformance.Proofs.Fixture.Directory
import Conformance.Proofs.Trial.Positions
import Conformance.Proofs.Producer
import Conformance.Proofs.Sandbox.Aliases
import Conformance.Proofs.Receipt
import Conformance.Proofs.Sandbox.Metering
import Conformance.Proofs.Trial.TotalGas
