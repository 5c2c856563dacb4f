import Dirtsand.Config
import Dirtsand.Types.Uuid
import Dirtsand.Types.Text
import Dirtsand.Lib.Transition
import Dirtsand.Lib.PartialMap
import Dirtsand.Lib.Table
import Dirtsand.Lib.Dict
import Dirtsand.Lib.Dialogue
import Dirtsand.Lib.Served
import Dirtsand.Lib.Graph
import Dirtsand.Lib.Reader
import Dirtsand.Lib.Listed
import Dirtsand.Lib.Path
import Dirtsand.Lib.LastWriter
import Dirtsand.Lib.Counted
import Dirtsand.Lib.Unset
import Dirtsand.Lib.SortedMap
import Dirtsand.Lib.Arrays
import Dirtsand.Lib.Sha
import Dirtsand.Lib.Locking
import Dirtsand.Streams
import Dirtsand.Types.Utf16
import Dirtsand.Lib.Encoding
import Dirtsand.Streams.Strings
import Dirtsand.Streams.Ciphers
import Dirtsand.Streams.Encrypted
import Dirtsand.Streams.Buffer
import Dirtsand.Streams.Contract
import Dirtsand.Streams.Zlib
import Dirtsand.Types.BitVector
import Dirtsand.Types.ShaHash
import Dirtsand.Types.TextForms
import Dirtsand.Settings
import Dirtsand.Lib.Pointwise
import Dirtsand.Types.Values
import Dirtsand.PlasMOUL.Key
import Dirtsand.SDL.VarType
import Dirtsand.SDL.DescriptorDb
import Dirtsand.SDL.Element
import Dirtsand.PlasMOUL.NetMsgStream
import Dirtsand.PlasMOUL.CreatableList
import Dirtsand.SDL.StateInfo
import Dirtsand.SDL.Format
import Dirtsand.SDL.RoundTrip
import Dirtsand.SDL.StateTree
import Dirtsand.SDL.Nested
import Dirtsand.SDL.Upgrade
import Dirtsand.SDL.Migration
import Dirtsand.SDL.SharedStates
import Dirtsand.SDL.Merging
import Dirtsand.SDL.Latest
import Dirtsand.SDL.Construction
import Dirtsand.SDL.Lexer
import Dirtsand.SDL.SdlParser
import Dirtsand.SDL.Rendering
import Dirtsand.SDL.Printing
import Dirtsand.SDL.Defaults
import Dirtsand.NetIO.SockIO
import Dirtsand.NetIO.SendIO
import Dirtsand.NetIO.MsgChannel
import Dirtsand.NetIO.CryptIO
import Dirtsand.NetIO.Handshake
import Dirtsand.NetIO.SessionKey
import Dirtsand.AuthServ.Session
import Dirtsand.AuthServ.SessionSteps
import Dirtsand.AuthServ.SessionSafety
import Dirtsand.AuthServ.OneSession
import Dirtsand.AuthServ.JoinAuth
import Dirtsand.AuthServ.Presence
import Dirtsand.AuthServ.VaultTypes
import Dirtsand.AuthServ.VaultFields
import Dirtsand.AuthServ.VaultCodec
import Dirtsand.AuthServ.Postgres
import Dirtsand.AuthServ.Vault
import Dirtsand.AuthServ.Daemon
import Dirtsand.AuthServ.Conversation
import Dirtsand.AuthServ.AnswersOnce
import Dirtsand.AuthServ.OneReply
import Dirtsand.GameServ.System
import Dirtsand.GameServ.Moves
import Dirtsand.GameServ.Starting
import Dirtsand.GameServ.Answers
import Dirtsand.GameServ.Deadlock
import Dirtsand.GameServ.Lifetime
import Dirtsand.GameServ.Progress
import Dirtsand.GameServ.History
import Dirtsand.GameServ.OneHost
import Dirtsand.GameServ.Calls
import Dirtsand.GameServ.Members
import Dirtsand.GameServ.GameMaster
import Dirtsand.GameServ.AgeSdl
import Dirtsand.GameServ.NullStates
import Dirtsand.GameServ.Locks
import Dirtsand.GameServ.MembersList
import Dirtsand.GameServ.Clones
import Dirtsand.GameServ.Handlers
import Dirtsand.GameServ.HostLocks
import Dirtsand.AuthServ.VaultStore
import Dirtsand.AuthServ.VaultSearch
import Dirtsand.AuthServ.GlobalSdl
import Dirtsand.Db.Tables
import Dirtsand.Db.Functions
import Dirtsand.Db.Tree
import Dirtsand.Db.Scores
import Dirtsand.AuthServ.Database
import Dirtsand.AuthServ.Asking
import Dirtsand.AuthServ.VaultTree
import Dirtsand.AuthServ.Script
import Dirtsand.AuthServ.Creation
import Dirtsand.AuthServ.Numbers
import Dirtsand.AuthServ.PlayerScript
import Dirtsand.AuthServ.PlayerCreation
import Dirtsand.AuthServ.PlayerRuns
import Dirtsand.AuthServ.Broadcasts
import Dirtsand.AuthServ.PlayerRequest
import Dirtsand.AuthServ.Servers
import Dirtsand.AuthServ.Scores
import Dirtsand.AuthServ.HighScores
import Dirtsand.AuthServ.NodeRequests
import Dirtsand.AuthServ.SdlNodes
import Dirtsand.AuthServ.FilePaths
import Dirtsand.AuthServ.Downloads
import Dirtsand.AuthServ.PublicAges
import Dirtsand.FileServ.FilePaths
import Dirtsand.FileServ.Downloads
import Dirtsand.Streams.Lines
import Dirtsand.FileServ.ManifestLines
import Dirtsand.FileServ.Manifests
import Dirtsand.Lib.Codec
import Dirtsand.PlasMOUL.Fields
import Dirtsand.PlasMOUL.Structs
import Dirtsand.PlasMOUL.Creatable
import Dirtsand.PlasMOUL.Messages
import Dirtsand.PlasMOUL.Avatar
import Dirtsand.PlasMOUL.NetMessages
import Dirtsand.PlasMOUL.Factory
import Dirtsand.PlasMOUL.SafeForNet
import Dirtsand.PlasMOUL.Reencoding
import Dirtsand.GameServ.Relay
import Dirtsand.Lib.Keystream
import Dirtsand.NetIO.CryptSession
import Dirtsand.NetIO.Connect
import Dirtsand.NetIO.Lobby
import Dirtsand.NetIO.ServeLoop
import Dirtsand.GateKeeper.GateServ
import Dirtsand.GateKeeper.Client
import Dirtsand.FileServ.FileServer
import Dirtsand.FileServ.Patching
