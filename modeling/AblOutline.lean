import AblOutline.Completion.Basic
import AblOutline.Completion.Candidates
import AblOutline.Completion.Query
import AblOutline.Condition.Evaluation
import AblOutline.Condition.Expression
import AblOutline.Condition.Grammar
import AblOutline.Condition.Value
import AblOutline.Condition.Whole
import AblOutline.Directory
import AblOutline.Item.Basic
import AblOutline.Keyword.Builtin
import AblOutline.Keyword.Define
import AblOutline.Keyword.Primitive
import AblOutline.Keyword.Statement
import AblOutline.LineState
import AblOutline.Links
import AblOutline.Nesting
import AblOutline.Nesting.Closing
import AblOutline.Outline
import AblOutline.Parse.Directives
import AblOutline.Parse.Expansion
import AblOutline.Parse.Run
import AblOutline.Parse.Shared
import AblOutline.Parse.State
import AblOutline.Parse.Statements
import AblOutline.Parse.Words
import AblOutline.ParsedFile
import AblOutline.Preprocess.Arguments
import AblOutline.Preprocess.Definitions
import AblOutline.Preprocess.Directive
import AblOutline.Project
import AblOutline.Proofs.Alike
import AblOutline.Proofs.Alike.Statements
import AblOutline.Proofs.Alike.Words
import AblOutline.Proofs.Arguments
import AblOutline.Proofs.Arguments.Passing
import AblOutline.Proofs.Arguments.Quotes
import AblOutline.Proofs.Arguments.Words
import AblOutline.Proofs.Branches
import AblOutline.Proofs.Cached.Mirror
import AblOutline.Proofs.Cached.Run
import AblOutline.Proofs.Cached.Unseen
import AblOutline.Proofs.Chains
import AblOutline.Proofs.Change
import AblOutline.Proofs.Change.Directives
import AblOutline.Proofs.Change.Run
import AblOutline.Proofs.Change.Statements
import AblOutline.Proofs.Comments
import AblOutline.Proofs.Comments.Blanking
import AblOutline.Proofs.Comments.Depths
import AblOutline.Proofs.Comments.Lexemes
import AblOutline.Proofs.Completion
import AblOutline.Proofs.Completion.Choice
import AblOutline.Proofs.Conditions
import AblOutline.Proofs.Conditions.Derived
import AblOutline.Proofs.Conditions.Doubles
import AblOutline.Proofs.Conditions.Nearest
import AblOutline.Proofs.Conditions.Reading
import AblOutline.Proofs.Conditions.Wholes
import AblOutline.Proofs.Cursor
import AblOutline.Proofs.Definitions
import AblOutline.Proofs.Directory
import AblOutline.Proofs.Dump
import AblOutline.Proofs.Dump.Columns
import AblOutline.Proofs.Dump.Reading
import AblOutline.Proofs.Dump.Regions
import AblOutline.Proofs.Entries
import AblOutline.Proofs.Expansion
import AblOutline.Proofs.Expansion.Pieces
import AblOutline.Proofs.Expansion.Rounds
import AblOutline.Proofs.Findings
import AblOutline.Proofs.Functions
import AblOutline.Proofs.Functions.Table
import AblOutline.Proofs.Inclusion
import AblOutline.Proofs.Inclusion.Marks
import AblOutline.Proofs.Inclusion.Openings
import AblOutline.Proofs.Inclusion.Reading
import AblOutline.Proofs.Layers
import AblOutline.Proofs.Layers.Deeds
import AblOutline.Proofs.Layers.Paces
import AblOutline.Proofs.Layers.Reading
import AblOutline.Proofs.Letters
import AblOutline.Proofs.Letters.Conditions
import AblOutline.Proofs.Letters.Directives
import AblOutline.Proofs.Letters.Ending
import AblOutline.Proofs.Letters.Expansion
import AblOutline.Proofs.Letters.Lexing
import AblOutline.Proofs.Letters.Reading
import AblOutline.Proofs.Letters.State
import AblOutline.Proofs.Letters.Text
import AblOutline.Proofs.Letters.Words
import AblOutline.Proofs.Lexing
import AblOutline.Proofs.Lexing.Joining
import AblOutline.Proofs.Lexing.Lines
import AblOutline.Proofs.Lexing.Literals
import AblOutline.Proofs.Lexing.Rereading
import AblOutline.Proofs.Lexing.Tiling
import AblOutline.Proofs.Lines
import AblOutline.Proofs.Links
import AblOutline.Proofs.Masked
import AblOutline.Proofs.Masked.Beside
import AblOutline.Proofs.Masked.Branching
import AblOutline.Proofs.Masked.Looking
import AblOutline.Proofs.Masked.Passing
import AblOutline.Proofs.Masked.Stretches
import AblOutline.Proofs.Operands
import AblOutline.Proofs.Operands.Directives
import AblOutline.Proofs.Operands.Passing
import AblOutline.Proofs.Operands.Reading
import AblOutline.Proofs.Outline
import AblOutline.Proofs.Pieces
import AblOutline.Proofs.PlainRun
import AblOutline.Proofs.Program
import AblOutline.Proofs.Program.Directives
import AblOutline.Proofs.Program.Endings
import AblOutline.Proofs.Program.Grammar
import AblOutline.Proofs.Program.Reading
import AblOutline.Proofs.Program.Sentences
import AblOutline.Proofs.Program.Structure
import AblOutline.Proofs.Program.View
import AblOutline.Proofs.Refusals
import AblOutline.Proofs.Resting
import AblOutline.Proofs.RootLines
import AblOutline.Proofs.RootLines.Findings
import AblOutline.Proofs.RootLines.Reading
import AblOutline.Proofs.RootLines.Stream
import AblOutline.Proofs.Scopes
import AblOutline.Proofs.Scopes.Faults
import AblOutline.Proofs.Scopes.Ledger
import AblOutline.Proofs.Scopes.Shifts
import AblOutline.Proofs.Session
import AblOutline.Proofs.Shared
import AblOutline.Proofs.Sorting
import AblOutline.Proofs.Steps
import AblOutline.Proofs.Stream
import AblOutline.Proofs.Substitutions
import AblOutline.Proofs.TableUses
import AblOutline.Proofs.TableUses.Books
import AblOutline.Proofs.TableUses.Reading
import AblOutline.Proofs.Termination
import AblOutline.Proofs.Termination.Endless
import AblOutline.Proofs.Termination.Reading
import AblOutline.Proofs.Termination.Values
import AblOutline.Proofs.Threads
import AblOutline.Proofs.Threads.Operations
import AblOutline.Proofs.Timers
import AblOutline.Proofs.Traffic
import AblOutline.Proofs.Traffic.Flights
import AblOutline.Proofs.Traffic.Sound
import AblOutline.Proofs.Unwinding
import AblOutline.Report
import AblOutline.Scheduler.Flight
import AblOutline.Scheduler.Run
import AblOutline.Scheduler.Timers
import AblOutline.Scheduler.Traffic
import AblOutline.Scheduler.Unwinding
import AblOutline.Scheduler.Worker
import AblOutline.Schema.Basic
import AblOutline.Schema.Dump
import AblOutline.Session
import AblOutline.Source.Cache
import AblOutline.Source.Chain
import AblOutline.Source.Extension
import AblOutline.Source.FileStore
import AblOutline.Source.Path
import AblOutline.Source.Propath
import AblOutline.Source.Resolver
import AblOutline.Statement.Action
import AblOutline.Statement.Basic
import AblOutline.Statement.Definition
import AblOutline.Statement.Fault
import AblOutline.Statement.Routine
import AblOutline.StructureError
import AblOutline.Text.Blank
import AblOutline.Text.Case
import AblOutline.Text.Integer
import AblOutline.Text.Position
import AblOutline.Text.Quoted
import AblOutline.Text.Split
import AblOutline.Text.Table.CombiningMark
import AblOutline.Text.Table.Lowercase
import AblOutline.Text.Table.Unprintable
import AblOutline.Text.Utf8
import AblOutline.Text.Word
import AblOutline.Token.Basic
import AblOutline.Token.Cursor
import AblOutline.Token.Lexeme
import AblOutline.Token.Lexer
import AblOutline.Visit
