import ArRobotCode.Library.Triples
import ArRobotCode.Library.Refinement
import ArRobotCode.Library.GridWalk
import ArRobotCode.Library.DocumentStore
import ArRobotCode.Library.Programs
import ArRobotCode.Library.HiddenKeys
import ArRobotCode.Library.BlockMachine
import ArRobotCode.Library.Loops
import ArRobotCode.Library.Grouping
import ArRobotCode.Library.ParentForest
import ArRobotCode.Library.Structured
import ArRobotCode.Swift.Runtime
import ArRobotCode.Swift.Splitting
import ArRobotCode.Swift.Sorting
import ArRobotCode.Entities.Json
import ArRobotCode.Entities.DataTile
import ArRobotCode.Entities.DataLevel
import ArRobotCode.Entities.Decoding
import ArRobotCode.Game.Player
import ArRobotCode.Game.Engine
import ArRobotCode.Game.EngineSteps
import ArRobotCode.Game.EngineSafety
import ArRobotCode.Game.EnginePath
import ArRobotCode.Game.Play
import ArRobotCode.Game.Undo
import ArRobotCode.Game.Verdicts
import ArRobotCode.Game.PlayerSimulation
import ArRobotCode.Game.Session
import ArRobotCode.Game.SessionStop
import ArRobotCode.Game.Scene
import ArRobotCode.Game.SceneTiles
import ArRobotCode.Game.StartTile
import ArRobotCode.Game.ScreenTaps
import ArRobotCode.Levels.Repository
import ArRobotCode.Levels.LevelViewModel
import ArRobotCode.Levels.Editing
import ArRobotCode.Levels.EditorPosition
import ArRobotCode.Levels.WellFormed
import ArRobotCode.Levels.Resizing
import ArRobotCode.Levels.EditRuns
import ArRobotCode.Levels.SizeFields
import ArRobotCode.Levels.LevelsList
import ArRobotCode.Levels.Mirror
import ArRobotCode.Levels.Sync
import ArRobotCode.Users.UserRepository
import ArRobotCode.Users.AccountSteps
import ArRobotCode.Users.AccountContents
import ArRobotCode.Users.CompletedLevels
import ArRobotCode.Server.Repository
import ArRobotCode.Server.UpdateSteps
import ArRobotCode.Server.UpdateFaults
import ArRobotCode.Server.Requests
import ArRobotCode.Server.Concurrent
import ArRobotCode.Server.ConcurrentRename
import ArRobotCode.Server.Serializable
import ArRobotCode.Server.LevelStore
import ArRobotCode.API.Response
import ArRobotCode.Server.LevelsQuery
import ArRobotCode.Game.Opening
import ArRobotCode.Game.Placing
import ArRobotCode.Game.CellNodes
import ArRobotCode.Main.PublicLevels
import ArRobotCode.Main.PrivateLevels
import ArRobotCode.Main.PublicScreen
import ArRobotCode.Scratch.Cast
import ArRobotCode.Scratch.Instructions
import ArRobotCode.Scratch.Thread
import ArRobotCode.Scratch.Vm
import ArRobotCode.Scratch.Adapter
import ArRobotCode.Scratch.Workspace
import ArRobotCode.Scratch.EntryLinks
import ArRobotCode.Scratch.EditorBlocks
import ArRobotCode.Scratch.AdapterReads
import ArRobotCode.Scratch.WorkspaceLinks
import ArRobotCode.Scratch.WorkspaceMoves
import ArRobotCode.Scratch.WorkspaceDeletes
import ArRobotCode.Scratch.WorkspaceCreates
import ArRobotCode.Scratch.EditorPieces
import ArRobotCode.Scratch.WorkspaceEvents
import ArRobotCode.Scratch.Executions
import ArRobotCode.Scratch.Posted
import ArRobotCode.Scratch.Script
import ArRobotCode.Scratch.Simulation
import ArRobotCode.Scratch.Trace
import ArRobotCode.Scratch.Refinement
import ArRobotCode.Scratch.Programs
import ArRobotCode.Scratch.Standing
import ArRobotCode.Scratch.Course
import ArRobotCode.Scratch.CourseSteps
import ArRobotCode.Scratch.CourseBlocks
import ArRobotCode.Scratch.CourseTurns
import ArRobotCode.Scratch.CourseTicks
import ArRobotCode.Scratch.CourseEvents
import ArRobotCode.Scratch.CourseRuns
import ArRobotCode.Scratch.StructuredRuns
import ArRobotCode.Scratch.BlockCached
import ArRobotCode.Scratch.BuiltPrograms
import ArRobotCode.Game.Protocol
import ArRobotCode.Game.Conversation
import ArRobotCode.Game.App
import ArRobotCode.Game.Program
import ArRobotCode.Game.ConditionalColours
import ArRobotCode.Game.Glow
import ArRobotCode.Game.Handlers
