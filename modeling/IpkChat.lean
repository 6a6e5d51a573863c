import IpkChat.CProg.Mem
import IpkChat.CProg.CString
import IpkChat.CProg.HeapString
import IpkChat.CProg.Tokens
import IpkChat.CProg.Scanning
import IpkChat.CProg.Framing
import IpkChat.CProg.Prog
import IpkChat.CProg.Machine
import IpkChat.CProg.PrefixCode
import IpkChat.CProg.FirstOccurrence
import IpkChat.CProg.Filling
import IpkChat.CProg.Yields
import IpkChat.CProg.Strtol
import IpkChat.CProg.Getline
import IpkChat.Wire.Messages
import IpkChat.Wire.Serialize
import IpkChat.Wire.SerializeStores
import IpkChat.Wire.ClientMessages
import IpkChat.Wire.Deserialize
import IpkChat.Wire.DeserializeTheorems
import IpkChat.Wire.Layout
import IpkChat.Wire.Acceptance
import IpkChat.Wire.RoundTrip
import IpkChat.Client.Id
import IpkChat.Client.IdTheorems
import IpkChat.Client.SeenIds
import IpkChat.Client.Global
import IpkChat.Client.Validation
import IpkChat.Client.ValidationTheorems
import IpkChat.Udp.Send
import IpkChat.Udp.Confirmation
import IpkChat.Udp.ConfirmationTheorems
import IpkChat.Udp.Delivery
import IpkChat.Tcp.Send
import IpkChat.Client.Commands
import IpkChat.Client.Main
import IpkChat.Client.Args
import IpkChat.Client.ArgPairs
import IpkChat.Client.ArgRuns
import IpkChat.Client.ArgsTheorems
import IpkChat.Client.Lines
import IpkChat.Client.CommandTheorems
import IpkChat.Client.Reaction
import IpkChat.Client.ReactionTheorems
import IpkChat.Client.RejectedInput
import IpkChat.Client.Selection
import IpkChat.Client.NameStorage
import IpkChat.Client.TypedCommands
import IpkChat.Client.LinePointer
import IpkChat.Udp.Receive
import IpkChat.Udp.ReceiveTheorems
import IpkChat.Udp.Acknowledgement
import IpkChat.Udp.Robustness
import IpkChat.Udp.Leftovers
import IpkChat.Udp.Truncation
import IpkChat.Tcp.Receive
import IpkChat.Tcp.Scan
import IpkChat.Tcp.Buffers
import IpkChat.Tcp.Listener
import IpkChat.Tcp.ListenerTheorems
import IpkChat.Tcp.Capacity
import IpkChat.Tcp.Grammar
import IpkChat.Tcp.ConnectionTheorems
import IpkChat.Session.Reception
import IpkChat.Session.ServerLines
import IpkChat.Session.SentLines
import IpkChat.Session.LineContents
import IpkChat.Session.ChatLines
import IpkChat.Session.CommandsAsTyped
import IpkChat.Session.Derivations
import IpkChat.Session.Rejection
import IpkChat.Session.Recognition
import IpkChat.Session.NameHistory
import IpkChat.Session.ServerDatagrams
import IpkChat.Session.PromptConfirmation
import IpkChat.Session.Rounds
import IpkChat.Session.MessageIds
import IpkChat.Session.ClientFsm
import IpkChat.CProg.Guarantee
import IpkChat.CProg.Commuting
import IpkChat.CProg.Tickets
import IpkChat.CProg.Descriptors
import IpkChat.CProg.SharedDescriptor
import IpkChat.Session.Interleaving
import IpkChat.Session.StateWrites
import IpkChat.Session.Cutting
import IpkChat.Session.Conversation
import IpkChat.Session.Network
import IpkChat.Session.NetworkChat
import IpkChat.Session.Numbering
import IpkChat.Session.UniqueIds
import IpkChat.Session.Faults
import IpkChat.Session.StreamFaults
import IpkChat.Session.LineBlock
import IpkChat.Session.RecvBuffer
import IpkChat.Session.ChatTraffic
import IpkChat.Session.Farewell
import IpkChat.Session.Authentication
import IpkChat.Session.Process
import IpkChat.Session.Retransmission
import IpkChat.Session.Requests
import IpkChat.Session.RequestTheorems
import IpkChat.Session.ConfirmationRefinement
import IpkChat.Session.Socket
import IpkChat.Session.ErrDelivery
import IpkChat.Session.DynamicPort
import IpkChat.Session.WellFormed
import IpkChat.Session.Display
import IpkChat.Session.SocketDisplay
import IpkChat.Session.Exit
import IpkChat.Session.TransportAgreement
import IpkChat.Session.ScriptAgreement
import IpkChat.Session.Uninterrupted
import IpkChat.Session.Dispatch
