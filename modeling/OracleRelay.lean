import OracleRelay.Adapter.Loop
import OracleRelay.Adapter.State
import OracleRelay.Cbor.Decoder
import OracleRelay.Cbor.Item
import OracleRelay.Cbor.Params
import OracleRelay.Command.Act
import OracleRelay.Command.Basic
import OracleRelay.Command.Invocation
import OracleRelay.Config.Backoff
import OracleRelay.Config.Chain
import OracleRelay.Config.Check
import OracleRelay.Config.Endpoint
import OracleRelay.Config.Settings
import OracleRelay.Config.Store
import OracleRelay.Cursor.LogFilter
import OracleRelay.Cursor.Position
import OracleRelay.Cursor.Tracker
import OracleRelay.Dispatch.Delivery
import OracleRelay.Evm.Flavor
import OracleRelay.Evm.Log
import OracleRelay.Evm.Poll
import OracleRelay.Http.Exchange
import OracleRelay.Json.Literal
import OracleRelay.Json.Octets
import OracleRelay.Json.Parser
import OracleRelay.Json.Printer
import OracleRelay.Json.Record
import OracleRelay.Json.Tree
import OracleRelay.Json.Value
import OracleRelay.Main
import OracleRelay.Number.Binary64
import OracleRelay.Ontology.Notice
import OracleRelay.Ontology.Scan
import OracleRelay.Proofs.Adapter.Run
import OracleRelay.Proofs.Adapter.Silence
import OracleRelay.Proofs.Cbor.Encoding
import OracleRelay.Proofs.Cbor.Params
import OracleRelay.Proofs.Config.Formats
import OracleRelay.Proofs.Config.History
import OracleRelay.Proofs.Config.Store
import OracleRelay.Proofs.Cursor.LogFilter
import OracleRelay.Proofs.Cursor.Position
import OracleRelay.Proofs.Cursor.PositionText
import OracleRelay.Proofs.Dispatch.Retrying
import OracleRelay.Proofs.Evm.Ledger
import OracleRelay.Proofs.Evm.Polling
import OracleRelay.Proofs.Json.Literals
import OracleRelay.Proofs.Json.Members
import OracleRelay.Proofs.Json.Reading
import OracleRelay.Proofs.Json.Records
import OracleRelay.Proofs.Json.Values
import OracleRelay.Proofs.Ontology.Scanning
import OracleRelay.Proofs.Push.Connection
import OracleRelay.Proofs.Push.Reconnecting
import OracleRelay.Proofs.Push.Tandem
import OracleRelay.Proofs.Rpc.Messages
import OracleRelay.Proofs.Service.Desk
import OracleRelay.Proofs.Service.LivePairs
import OracleRelay.Proofs.Service.Operations
import OracleRelay.Proofs.Service.Planning
import OracleRelay.Proofs.Service.Pumping
import OracleRelay.Proofs.Service.Registered
import OracleRelay.Proofs.Substrate.EventRecords
import OracleRelay.Proofs.Substrate.Scale
import OracleRelay.Proofs.Text.Hex
import OracleRelay.Proofs.Text.Numeral
import OracleRelay.Proofs.Text.Octets
import OracleRelay.Proofs.Text.Utf8
import OracleRelay.Proofs.Tezos.Flattening
import OracleRelay.Proofs.Tezos.Spelling
import OracleRelay.Proofs.Tezos.Walk
import OracleRelay.Push.Listener
import OracleRelay.Push.Session
import OracleRelay.Push.Subscriber
import OracleRelay.Rehearsal.Feed
import OracleRelay.Rehearsal.Folder
import OracleRelay.Rehearsal.HttpNode
import OracleRelay.Rehearsal.Office
import OracleRelay.Rehearsal.Relay
import OracleRelay.Rehearsal.RpcScript
import OracleRelay.Rehearsal.Service
import OracleRelay.Rehearsal.Socket
import OracleRelay.Rehearsal.Stage
import OracleRelay.Rehearsal.TezosScript
import OracleRelay.Request.Event
import OracleRelay.Request.Fields
import OracleRelay.Request.JobId
import OracleRelay.Request.Runlog
import OracleRelay.Rpc.Fault
import OracleRelay.Rpc.Message
import OracleRelay.Rpc.Post
import OracleRelay.Service.Fault
import OracleRelay.Service.Manager
import OracleRelay.Service.Plan
import OracleRelay.Service.Pump
import OracleRelay.Substrate.Events
import OracleRelay.Substrate.Request
import OracleRelay.Substrate.Scale
import OracleRelay.Text.Blank
import OracleRelay.Text.Column
import OracleRelay.Text.Hex
import OracleRelay.Text.Numeral
import OracleRelay.Text.Octets
import OracleRelay.Text.Utf8
import OracleRelay.Tezos.HeadLines
import OracleRelay.Tezos.Micheline
import OracleRelay.Tezos.Monitor
import OracleRelay.Tezos.Node
import OracleRelay.Tezos.Operation
import OracleRelay.Tezos.Request
import OracleRelay.Trigger.Client
import OracleRelay.Trigger.Fault
import OracleRelay.Url.Address
import OracleRelay.Url.Host
import OracleRelay.Proofs.Request.Body
import OracleRelay.Proofs.Request.Event
import OracleRelay.Proofs.Request.Fields
import OracleRelay.Proofs.Request.Payload
import OracleRelay.Proofs.Tezos.HeadLines
import OracleRelay.Proofs.Tezos.BlockRequests
import OracleRelay.Proofs.Tezos.MapEntries
import OracleRelay.Proofs.Substrate.Pairing
import OracleRelay.Proofs.Substrate.Notices
import OracleRelay.Proofs.Evm.SameReading
import OracleRelay.Proofs.Tezos.FieldNames
import OracleRelay.Proofs.Tezos.Leaves
import OracleRelay.Proofs.Tezos.RequestsMap
import OracleRelay.Proofs.Cursor.Forward
import OracleRelay.Proofs.Evm.Heads
import OracleRelay.Proofs.Cbor.Bignum
import OracleRelay.Proofs.Cbor.Conversion
import OracleRelay.Proofs.Request.JobTopic
import OracleRelay.Proofs.Ontology.Notices
import OracleRelay.Proofs.Service.Bootstrapping
