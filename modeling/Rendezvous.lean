import Rendezvous.Broker.Run
import Rendezvous.Client.Agent
import Rendezvous.Client.Relaying
import Rendezvous.Control.ReadLine
import Rendezvous.Main
import Rendezvous.Proofs.ControlLine
import Rendezvous.Proofs.History
import Rendezvous.Proofs.Registry
import Rendezvous.Proofs.Stream
import Rendezvous.WebSocket.ByteView
import Rendezvous.Proofs.Turn
import Rendezvous.Proofs.Copying
import Rendezvous.Proofs.Stakes
import Rendezvous.Proofs.Step
import Rendezvous.Proofs.Wiring
import Rendezvous.Proofs.Handles
import Rendezvous.Proofs.Leases
import Rendezvous.Proofs.Orphans
import Rendezvous.Proofs.Serving
import Rendezvous.Proofs.Handoffs
import Rendezvous.Proofs.Encounters
import Rendezvous.Proofs.Ledger
import Rendezvous.Proofs.Payload
import Rendezvous.Proofs.Pairing
import Rendezvous.Proofs.Departures
import Rendezvous.Proofs.StaleRegistrations
import Rendezvous.Proofs.LineReading
import Rendezvous.Proofs.CommandWire
import Rendezvous.Proofs.Sift
import Rendezvous.Proofs.Slice
import Rendezvous.Proofs.SlicedTurn
import Rendezvous.Proofs.SlicedStep
import Rendezvous.Proofs.Dispatches
import Rendezvous.Proofs.Interference
import Rendezvous.Proofs.Acceptance
import Rendezvous.Proofs.Promptness
import Rendezvous.Proofs.Refusals
import Rendezvous.Proofs.Answers
import Rendezvous.Proofs.Verdicts
import Rendezvous.Proofs.Identification
import Rendezvous.Proofs.Accounting
import Rendezvous.Proofs.Stopping
import Rendezvous.Proofs.RegistryHistory
import Rendezvous.Proofs.Exchange
import Rendezvous.Proofs.LineContent
import Rendezvous.Proofs.StreamRuns
import Rendezvous.Proofs.StreamSupply
import Rendezvous.Proofs.Lapses
import Rendezvous.Proofs.KeepAlive
import Rendezvous.Proofs.Deliveries
import Rendezvous.Proofs.EarlyBytes
import Rendezvous.Proofs.Evictions
import Rendezvous.Proofs.Silence
import Rendezvous.Proofs.Grammar
import Rendezvous.Proofs.Pauses
import Rendezvous.Proofs.Messages
import Rendezvous.Proofs.HandshakeFailures
import Rendezvous.Proofs.BrokerAddress
