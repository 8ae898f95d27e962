import FiveStones.Lib.Machine
import FiveStones.Lib.Simulation
import FiveStones.Lib.Dict
import FiveStones.Lib.Streak
import FiveStones.Lib.Rows
import FiveStones.Lib.Fifo
import FiveStones.Json
import FiveStones.Board
import FiveStones.Online
import FiveStones.Room
import FiveStones.Play
import FiveStones.RoomManager
import FiveStones.UserTable
import FiveStones.Matcher
import FiveStones.Theorems.Line
import FiveStones.Theorems.RoomStep
import FiveStones.Theorems.RoomInv
import FiveStones.Theorems.Settlement
import FiveStones.Theorems.History
import FiveStones.Theorems.RoomMap
import FiveStones.Theorems.Sender
import FiveStones.Theorems.Ledger
import FiveStones.Theorems.ServerStep
import FiveStones.Theorems.Load
import FiveStones.Theorems.Booking
import FiveStones.Theorems.Waiting
import FiveStones.Front
import FiveStones.Theorems.FrontStep
import FiveStones.Theorems.Registration
import FiveStones.Theorems.Withdrawal
import FiveStones.Theorems.Departures
import FiveStones.Theorems.Refusal
import FiveStones.Text
import FiveStones.Session
import FiveStones.Sql
import FiveStones.Account
import FiveStones.Lib.Path
import FiveStones.StaticFiles
import FiveStones.UserCache
import FiveStones.Theorems.SessionStep
import FiveStones.Theorems.Header
import FiveStones.Gate
import FiveStones.Theorems.GateStep
import FiveStones.Theorems.Overlap
import FiveStones.Theorems.Lifetime
import FiveStones.Theorems.Inert
import FiveStones.Theorems.SsidOwner
import FiveStones.Theorems.Conversion
import FiveStones.Theorems.Statement
import FiveStones.Theorems.WebRoot
import FiveStones.Theorems.Freshness
import FiveStones.Theorems.Rejection
import FiveStones.Theorems.Handshake
import FiveStones.Theorems.Opening
import FiveStones.Theorems.FullBoard
import FiveStones.Theorems.Rematch
import FiveStones.Theorems.Announcement
import FiveStones.Theorems.Clock
import FiveStones.Theorems.Expiry
import FiveStones.Theorems.Fallback
import FiveStones.Replica
import FiveStones.UserStore
import FiveStones.IoThread
import FiveStones.Theorems.Presence
import FiveStones.Theorems.Uninterrupted
import FiveStones.Theorems.Pieces
import FiveStones.Theorems.Cookie
import FiveStones.Grid
import FiveStones.Theorems.Runs
import FiveStones.RedisCache
import FiveStones.Theorems.HalfWritten
import FiveStones.Page
import FiveStones.Theorems.Delivery
import FiveStones.Theorems.FairPlay
import FiveStones.Rules
import FiveStones.Theorems.Orderly
import FiveStones.Duel
import FiveStones.Theorems.Service
import FiveStones.Theorems.Broadcast
import FiveStones.Theorems.Alarm
import FiveStones.AppConfig
import FiveStones.Lobby
import FiveStones.Theorems.Settings
import FiveStones.Theorems.Seating
