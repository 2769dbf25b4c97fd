import EdoproServer.Basic
import EdoproServer.Lib.InsertionMap
import EdoproServer.Lib.Grouping
import EdoproServer.Lib.Counts
import EdoproServer.Lib.StableOrder
import EdoproServer.Stats.Elo
import EdoproServer.Stats.EloBounds
import EdoproServer.Stats.Replay
import EdoproServer.Decks.Basic
import EdoproServer.Decks.SideDeck
import EdoproServer.Decks.BanListHash
import EdoproServer.Decks.BanListAliases
import EdoproServer.Decks.Validators
import EdoproServer.Decks.Acceptance
import EdoproServer.Messages.MessageProcessor
import EdoproServer.Messages.Framing
import EdoproServer.Messages.Totality
import EdoproServer.Messages.Buffers
import EdoproServer.Stats.GameOver
import EdoproServer.Stats.History
import EdoproServer.Stats.Points
import EdoproServer.Stats.RankGroups
import EdoproServer.Stats.LaggingServers
import EdoproServer.Stats.Backfill
import EdoproServer.Stats.Reconciliation
import EdoproServer.Stats.SelfCheck
import EdoproServer.Stats.AnnouncementText
import EdoproServer.Lib.Effect
import EdoproServer.Lib.Codec
import EdoproServer.Lib.Json
import EdoproServer.Lib.Utf8
import EdoproServer.Lib.Bits
import EdoproServer.Lib.Probing
import EdoproServer.Lib.Double
import EdoproServer.Lib.Splitting
import EdoproServer.Lib.Utf16
import EdoproServer.Lib.TokenPatterns
import EdoproServer.Lib.Base64
import EdoproServer.Lib.NumberText
import EdoproServer.Lib.JsonText
import EdoproServer.Matchmaking.Participant
import EdoproServer.Matchmaking.PoolStore
import EdoproServer.Matchmaking.PendingMatches
import EdoproServer.Matchmaking.Pairing
import EdoproServer.Matchmaking.Pool
import EdoproServer.Matchmaking.Custody
import EdoproServer.Matchmaking.Proposals
import EdoproServer.Matchmaking.Refinement
import EdoproServer.Matchmaking.TickRefinement
import EdoproServer.Matchmaking.Requests
import EdoproServer.Matchmaking.Guarantees
import EdoproServer.Matchmaking.Queue
import EdoproServer.Matchmaking.Activity
import EdoproServer.Matchmaking.Bookkeeping
import EdoproServer.Matchmaking.Exclusion
import EdoproServer.Matchmaking.Cancellation
import EdoproServer.Matchmaking.Facade
import EdoproServer.Matchmaking.FifoTick
import EdoproServer.Matchmaking.Provisioning
import EdoproServer.Matchmaking.Protocol
import EdoproServer.Matchmaking.WireFormat
import EdoproServer.Engine.OCGCore
import EdoproServer.Engine.Responses
import EdoproServer.Engine.Prompts
import EdoproServer.Engine.AdvanceLoop
import EdoproServer.Engine.ShuffleDecks
import EdoproServer.Engine.CardStorage
import EdoproServer.Engine.TimerState
import EdoproServer.Engine.TimeBanks
import EdoproServer.Engine.ResponseTimers
import EdoproServer.Lib.Actions
import EdoproServer.Room.Match
import EdoproServer.Room.Score
import EdoproServer.Room.LifePoints
import EdoproServer.Room.YGOProRoom
import EdoproServer.Room.Calls
import EdoproServer.Room.Handlers
import EdoproServer.Room.Runs
import EdoproServer.Room.Starting
import EdoproServer.Room.Seats
import EdoproServer.Room.SeatIntegrity
import EdoproServer.Room.Sides
import EdoproServer.Room.OneSeat
import EdoproServer.Room.Server
import EdoproServer.Room.Reconnection
import EdoproServer.Room.JoinRouting
import EdoproServer.Room.RuleMappings
import EdoproServer.Room.RoomCommand
import EdoproServer.Room.EvrpFrames
import EdoproServer.Room.EvrpReplay
import EdoproServer.Room.Ledger
import EdoproServer.Room.LineUp
import EdoproServer.Room.Tokens
import EdoproServer.Room.Log
import EdoproServer.Room.Causes
import EdoproServer.Room.Phases
import EdoproServer.Room.Homes
import EdoproServer.Room.Authority
import EdoproServer.Room.Wins
import EdoproServer.Room.Duels
import EdoproServer.Room.Endings
import EdoproServer.Room.Settlement
import EdoproServer.Room.Grace
import EdoproServer.ReservedDuel.Reservation
import EdoproServer.ReservedDuel.DeckLock
import EdoproServer.ReservedDuel.ReservedDuelSession
import EdoproServer.Edopro.TurnOrder
import EdoproServer.Edopro.Turns
import EdoproServer.Edopro.CoreChannel
import EdoproServer.Edopro.CoreFraming
import EdoproServer.Edopro.Replay
import EdoproServer.Core.Query
import EdoproServer.Core.QuerySerializer
import EdoproServer.Core.QueryDeserializer
import EdoproServer.Edopro.DeckReconnection
import EdoproServer.Room.DuelEventPluginHub
import EdoproServer.Stats.RatingAnnouncer
import EdoproServer.Edopro.Delivery
import EdoproServer.Edopro.Dueling
import EdoproServer.Edopro.Scoring
import EdoproServer.Core.Audience
import EdoproServer.Core.DuelRuns
