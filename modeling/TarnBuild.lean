import TarnBuild.Command.Run
import TarnBuild.Host.Data
import TarnBuild.Main
import TarnBuild.Proofs.Graph.Coherence
import TarnBuild.Proofs.Graph.Cycle
import TarnBuild.Proofs.Graph.Order
import TarnBuild.Proofs.Build.Assembly
import TarnBuild.Proofs.Host.Library
import TarnBuild.Proofs.Build.Failure
import TarnBuild.Proofs.Build.Dot
import TarnBuild.Proofs.Token.Pattern
import TarnBuild.Proofs.Grammar.Sound
import TarnBuild.Proofs.Grammar.Complete
import TarnBuild.Proofs.Grammar.Unique
import TarnBuild.Proofs.Grammar.Parse
import TarnBuild.Proofs.Token.Blank
import TarnBuild.Proofs.Token.Longest
import TarnBuild.Proofs.Token.Tokenization
import TarnBuild.Proofs.Grammar.TokensOnly
import TarnBuild.Proofs.Grammar.Scope
import TarnBuild.Proofs.Grammar.Explore
import TarnBuild.Proofs.Grammar.Viable
import TarnBuild.Proofs.Grammar.ViablePrefix
import TarnBuild.Proofs.Graph.Recursion
import TarnBuild.Proofs.Syntax.Data
import TarnBuild.Proofs.Grammar.Resume
import TarnBuild.Proofs.File.Path
import TarnBuild.Proofs.File.System
import TarnBuild.Proofs.Build.Source
import TarnBuild.Proofs.Build.Directory
import TarnBuild.Proofs.Build.Discovery
import TarnBuild.Proofs.Build.Program
import TarnBuild.Proofs.Token.Concatenation
import TarnBuild.Proofs.Token.Refusal
import TarnBuild.Proofs.Text.Bytes
import TarnBuild.Proofs.Text.Position
import TarnBuild.Proofs.Token.Excerpt
import TarnBuild.Proofs.Token.Spelling
import TarnBuild.Proofs.Grammar.Contents
import TarnBuild.Proofs.Grammar.CapturedText
import TarnBuild.Proofs.Grammar.WrittenType
import TarnBuild.Proofs.Grammar.Nesting
import TarnBuild.Proofs.Grammar.CommonFront
import TarnBuild.Proofs.Grammar.Places
import TarnBuild.Proofs.Grammar.Fork
import TarnBuild.Proofs.Graph.Ladder
import TarnBuild.Proofs.Text.Trim
import TarnBuild.Proofs.Host.HostType
import TarnBuild.Proofs.Config.Data
import TarnBuild.Proofs.File.Directory
import TarnBuild.Proofs.Build.Configuration
import TarnBuild.Proofs.Build.Extension
import TarnBuild.Proofs.Graph.Isolated
import TarnBuild.Proofs.Graph.Trace
import TarnBuild.Proofs.Grammar.Delimiters
import TarnBuild.Proofs.Graph.Effort
import TarnBuild.Proofs.Grammar.Call
